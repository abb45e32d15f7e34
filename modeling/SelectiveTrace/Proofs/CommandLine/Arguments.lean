import SelectiveTrace.CommandLine.Outcome

/-! The arguments of a scope query: a parameter that begins with no dash is taken as it is, and any
other is an option, which the command has none of. -/
namespace SelectiveTrace

namespace Command
variable {sig : Signature} {g : Given} {s param : String} {args : List String} {file : Path}
  {query : ScopeQuery}

/-- Only what begins with a dash is taken for an option. -/
theorem ofText_value (h : s.toList.head? ≠ some '-') : Argument.ofText s = .value s := by
  unfold Argument.ofText
  split
  case h_4 => rfl
  all_goals
    rename_i heq
    exact absurd (congrArg List.head? heq) h

theorem eq_of_ofText_value {t : String} (h : Argument.ofText s = .value t) : t = s := by
  unfold Argument.ofText at h
  split at h <;> cases h
  rfl

theorem read_value (hs : Argument.ofText s = .value s) (hlen : g.values.length < sig.values.length)
    (hcheck : sig.check g = .ok ()) :
    sig.read false g (s :: args) = sig.read false { g with values := g.values ++ [s] } args := by
  simp only [Signature.read, hs, Signature.takeValue, hlen, if_true, hcheck]
  rfl

def scopeSignature : Signature :=
  ⟨[.text, .path, .text], false⟩

def ofScopeValues : Given → Except UsageError Command
  | ⟨[op, file, param], _⟩ => .ok (.scope op ⟨file⟩ param)
  | _ => .error .missingArgument

theorem ofArguments_cons_scope :
    ofArguments ("scope" :: args) = (scopeSignature.read false {} args).bind ofScopeValues := by
  simp only [ofArguments, signature?, signatures]
  show Except.bind (scopeSignature.read false {} args) _ = _
  congr 1
  funext g
  rcases g with ⟨_ | ⟨op, _ | ⟨file, _ | ⟨param, _ | _⟩⟩⟩, json⟩ <;> rfl

theorem head_of_isAbsolute (hfile : file.isAbsolute) : file.text.toList.head? = some '/' := by
  obtain ⟨rest, hrest⟩ := List.isPrefixOf_iff_prefix.mp hfile
  rw [← hrest]
  rfl

theorem check_scope {op : String} {values : List String} (hfile : file.isAbsolute) :
    scopeSignature.check { values := op :: file.text :: values } = .ok () := by
  have hne : file.text ≠ "" := by
    intro hempty
    simpa [hempty] using head_of_isAbsolute hfile
  cases values <;> simp [Signature.check, scopeSignature, hne]

/-- The operation and an absolute path are taken for what they are. -/
theorem read_scope (hfile : file.isAbsolute) :
    scopeSignature.read false {} (query.opName :: file.text :: args) =
      scopeSignature.read false { values := [query.opName, file.text] } args := by
  have hop : query.opName.toList.head? ≠ some '-' := by
    cases query <;> simp [ScopeQuery.opName]
  have hpath : file.text.toList.head? ≠ some '-' := by
    simp [head_of_isAbsolute hfile]
  rw [read_value (ofText_value hop) (by decide) rfl,
    read_value (ofText_value hpath) (by simp [scopeSignature]) rfl]
  rfl

theorem ofArguments_scope (hfile : file.isAbsolute)
    (hparam : Argument.ofText param = .value param) :
    ofArguments ["scope", query.opName, file.text, param] =
      .ok (.scope query.opName file param) := by
  rw [ofArguments_cons_scope, read_scope hfile,
    read_value hparam (by simp [scopeSignature]) (check_scope hfile)]
  simp only [List.cons_append, List.nil_append, Signature.read, check_scope hfile]
  rfl

/-- The scope command has no option of its own: help and the version leave it, all else fails. -/
theorem takeLong_scope (name : String) (hasValue : Bool) :
    ∃ e, scopeSignature.takeLong g name hasValue = .error e := by
  unfold Signature.takeLong
  by_cases hknown : name = "help" ∨ name = "version"
  · rcases hknown with rfl | rfl <;> cases hasValue <;>
      cases scopeSignature.check g <;> exact ⟨_, rfl⟩
  · refine ⟨.unknownArgument, ?_⟩
    simp only [not_or.mp hknown, decide_false, scopeSignature, Bool.and_false, Bool.or_self,
      Bool.not_false, if_true]
    rfl

theorem takeShort_scope (c : Char) : ∃ e, scopeSignature.takeShort g c = .error e := by
  unfold Signature.takeShort
  by_cases hknown : c = 'h' ∨ c = 'V'
  · rcases hknown with rfl | rfl <;> cases scopeSignature.check g <;> exact ⟨_, rfl⟩
  · refine ⟨.unknownArgument, ?_⟩
    simp only [not_or.mp hknown, decide_false, Bool.or_self, Bool.not_false, if_true]
    rfl

/-- A parameter that is taken for an option leaves the command without one. -/
theorem ofArguments_option (hfile : file.isAbsolute)
    (hparam : Argument.ofText param ≠ .value param) :
    ∃ e, ofArguments ["scope", query.opName, file.text, param] = .error e := by
  rw [ofArguments_cons_scope, read_scope hfile, Signature.read]
  cases harg : Argument.ofText param with
  | separator =>
    refine ⟨.missingArgument, ?_⟩
    simp only [Signature.read, check_scope hfile]
    rfl
  | long name hasValue =>
    obtain ⟨e, he⟩ := takeLong_scope (g := { values := [query.opName, file.text] }) name hasValue
    exact ⟨e, by simp only [he]; rfl⟩
  | short c =>
    obtain ⟨e, he⟩ := takeShort_scope (g := { values := [query.opName, file.text] }) c
    exact ⟨e, by simp only [he]; rfl⟩
  | value s => exact absurd (eq_of_ofText_value harg ▸ harg) hparam

end Command

end SelectiveTrace
