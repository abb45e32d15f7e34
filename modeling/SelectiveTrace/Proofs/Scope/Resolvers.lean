import SelectiveTrace.Proofs.CommandLine.Arguments
import SelectiveTrace.Proofs.Scope.Wire

/-! Those who answer queries agree: the index in process, and a child that runs the command line on
the same files. -/
namespace SelectiveTrace

/-- Answers by a child that runs a program, which makes its outcome of all its arguments: those in
front of the query, and the query. -/
def Resolver.ofProgram (args : List String) (program : List String → CommandLine.Outcome) :
    Resolver where
  ask query file w :=
    let o := program (args ++ [query.opName, file.text, query.param])
    (process (.running args o.output o.exit)).ask query file w

section Agreement
variable {query : ScopeQuery} {file : Path} {w v : Surroundings} {setting : Option String}
  {config : Config}

/-- What is printed without a command is no reply. -/
theorem answer_ofUsage (e : UsageError) :
    (Resolver.Child.running ["scope"] (CommandLine.Outcome.ofUsage e).output
      (CommandLine.Outcome.ofUsage e).exit).answer = none := by
  cases e with
  | help =>
    have hhead : (CommandLine.Outcome.ofUsage .help).output.toList.head? = some 'S' := by
      simp [CommandLine.Outcome.ofUsage, CommandLine.usageText]
    have hparse := ScopeReply.parse_of_opensNone hhead ⟨by decide, by decide, by decide⟩ rfl
    simp [Resolver.Child.answer, hparse]
  | version => decide +kernel
  | _ => rfl

/-- Numbers and the names in an index do not begin with a dash. -/
theorem answer_of_dash {ix : ScopeIndex} {k : Nat} (h : ix.IsWithin k)
    (hdash : query.param.toList.head? = some '-') : query.answer ix = none := by
  have hnumber (line : Nat) : (toString line).toList.head? ≠ some '-' := by
    intro hhead
    have hmem : '-' ∈ Nat.toDigits 10 line :=
      Nat.toList_repr (n := line) ▸ List.mem_of_mem_head? hhead
    exact absurd (Json.isDigit_of_mem hmem) (by decide)
  cases query with
  | statementRange line => exact absurd hdash (hnumber line)
  | belongingMethod line => exact absurd hdash (hnumber line)
  | methodRange name =>
    refine Option.eq_none_iff_forall_not_mem.mpr fun s hs => ?_
    have hword : IsWord name := h.isWord hs
    have hname : name.toList.head? = some '-' := hdash
    rw [IsWord, hname] at hword
    exact absurd hword (by decide)

theorem ask_indexed (current : w.IsCurrent file) :
    (Resolver.indexed.ask query file w).1 = .ok (query.answer (w.freshIndex file)) := by
  simp only [Resolver.indexed, Surroundings.index_fst current]

theorem scopeText_of_sized (sized : query.IsSized) (absolute : file.isAbsolute)
    (current : v.IsCurrent file) : ∃ v', Command.scopeText query.opName file query.param v =
      .ok ((ScopeReply.ofSpan (query.answer (v.freshIndex file))).text ++ "\n", v') := by
  refine ⟨(v.index file).2, ?_⟩
  simp only [Command.scopeText, ScopeQuery.ofParts?_parts sized,
    Surroundings.absolute_of_isAbsolute absolute, ← Surroundings.index_fst current]

/-- A child that runs the command line answers from the index that the file gives. -/
theorem ask_run (sized : query.IsSized) (absolute : file.isAbsolute) (current : v.IsCurrent file)
    (counted : v.IsCounted file) (loads : Config.ofSetting v setting = .ok config) :
    ((Resolver.ofProgram ["scope"] fun args => CommandLine.run setting args v).ask query file w).1 =
      .ok (query.answer (v.freshIndex file)) := by
  obtain ⟨k, hk, hwithin⟩ := Surroundings.freshIndex_isWithin counted
  by_cases hparam : Argument.ofText query.param = .value query.param
  · obtain ⟨v', htext⟩ := scopeText_of_sized sized absolute current
    have hrun : CommandLine.run setting ["scope", query.opName, file.text, query.param] v =
        { output := (ScopeReply.ofSpan (query.answer (v.freshIndex file))).text ++ "\n" } := by
      simp only [CommandLine.run, Command.ofArguments_scope absolute hparam, loads,
        CommandLine.Outcome.ofCommand, Command.run, htext]
    have hlines : ∀ s ∈ query.answer (v.freshIndex file), s.IsWithin k := fun s => hwithin.answer
    have hanswer := ScopeReply.answer_of_line hlines hk
    simpa [Resolver.ofProgram, Resolver.process, hrun, Resolver.Child.answer] using hanswer
  · obtain ⟨e, he⟩ :
        ∃ e, Command.ofArguments ["scope", query.opName, file.text, query.param] = .error e :=
      Command.ofArguments_option absolute hparam
    have hrun : CommandLine.run setting ["scope", query.opName, file.text, query.param] v =
        .ofUsage e := by
      simp only [CommandLine.run, he]
    have hnone := answer_of_dash hwithin (not_imp_comm.mp Command.ofText_value hparam)
    simpa [Resolver.ofProgram, Resolver.process, hrun, hnone] using answer_ofUsage e

/-- An absolute path has the same contents in `w` and in `v`, and so it had when either made an
index of it. -/
structure Surroundings.Shares (w v : Surroundings) (file : Path) : Prop where
  absolute : file.isAbsolute
  read : v.disk.read file = w.disk.read file
  counted : w.IsCounted file
  current : w.IsCurrent file
  current' : v.IsCurrent file

namespace Surroundings.Shares

theorem freshIndex (h : w.Shares v file) : v.freshIndex file = w.freshIndex file := by
  apply freshIndex_congr
  simpa only [absolute_of_isAbsolute h.absolute] using h.read

theorem counted' (h : w.Shares v file) : v.IsCounted file := by
  simpa only [IsCounted, absolute_of_isAbsolute h.absolute, h.read] using h.counted

/-- The path is as it was after a question about another, unless that one is the same
path in a spelling that reads differently. -/
theorem index {other : Path} (h : w.Shares v file) (hother : other.isAbsolute)
    (alike : other.same file → w.disk.read other = w.disk.read file) :
    (w.index other).2.Shares v file where
  absolute := h.absolute
  read := index_disk (w := w) ▸ h.read
  counted := by simpa only [IsCounted, Surroundings.absolute, index_disk] using h.counted
  current := by
    refine h.current.index fun hsame => freshIndex_congr ?_
    simp only [absolute_of_isAbsolute hother, absolute_of_isAbsolute h.absolute] at hsame ⊢
    exact alike (by simp only [Path.same, hsame, decide_true])
  current' := h.current'

end Surroundings.Shares

/-- A query is read from its parts, the text that is printed for them tells what is answered in
process, and so a child that runs the command line and the index in process agree. -/
theorem wire_is_lossless (sized : query.IsSized) (shared : w.Shares v file)
    (loads : Config.ofSetting v setting = .ok config) :
    ScopeQuery.ofParts? query.opName query.param = some query ∧
    (∃ text v', Command.scopeText query.opName file query.param v = .ok (text, v') ∧
      (Resolver.indexed.ask query file w).1 =
        .ok ((ScopeReply.parse text).bind ScopeReply.span?)) ∧
    ((Resolver.ofProgram ["scope"] fun args => CommandLine.run setting args v).ask query file w).1 =
      (Resolver.indexed.ask query file w).1 := by
  have hasked : (Resolver.indexed.ask query file w).1 = _ := ask_indexed shared.current
  obtain ⟨k, hk, hwithin⟩ := Surroundings.freshIndex_isWithin shared.counted
  obtain ⟨v', htext⟩ := scopeText_of_sized sized shared.absolute shared.current'
  refine ⟨ScopeQuery.ofParts?_parts sized, ⟨_, v', htext, ?_⟩, ?_⟩
  · rw [hasked, shared.freshIndex, ScopeReply.answer_of_line (fun s => hwithin.answer) hk]
  · rw [ask_run sized shared.absolute shared.current' shared.counted' loads, shared.freshIndex,
      hasked]

end Agreement

def oneFunction : Surroundings :=
  { disk := ({} : Disk).place ⟨"/w/a.py"⟩ "def f():\n    return 1\n".toUTF8 }

theorem shares_oneFunction : oneFunction.Shares oneFunction ⟨"/w/a.py"⟩ where
  absolute := by decide
  read := rfl
  counted := by
    intro bytes hread
    have hlines : (oneFunction.disk.read ⟨"/w/a.py"⟩).toOption.map
        (fun bytes => (Text.ofUtf8Lossy bytes).toList.count '\n') = some 2 := by decide +kernel
    rw [Surroundings.absolute_of_isAbsolute (by decide)] at hread
    simp only [hread, Except.toOption, Option.map_some, Option.some.injEq] at hlines
    omega
  current := Surroundings.isCurrent_of_unread rfl
  current' := Surroundings.isCurrent_of_unread rfl

theorem one_function_on_the_wire :
    (ScopeQuery.belongingMethod 2).IsSized ∧ oneFunction.Shares oneFunction ⟨"/w/a.py"⟩ ∧
    (Config.ofSetting oneFunction none).isOk ∧
    ScopeQuery.ofParts? "get_belonging_method" "2" = some (.belongingMethod 2) ∧
    (∃ text v', Command.scopeText "get_belonging_method" ⟨"/w/a.py"⟩ "2" oneFunction =
        .ok (text, v') ∧
      (Resolver.indexed.ask (.belongingMethod 2) ⟨"/w/a.py"⟩ oneFunction).1 =
        .ok ((ScopeReply.parse text).bind ScopeReply.span?)) ∧
    ((Resolver.ofProgram ["scope"] fun args => CommandLine.run none args oneFunction).ask
        (.belongingMethod 2) ⟨"/w/a.py"⟩ oneFunction).1 =
      (Resolver.indexed.ask (.belongingMethod 2) ⟨"/w/a.py"⟩ oneFunction).1 := by
  have sized : (ScopeQuery.belongingMethod 2).IsSized := by
    show 2 < 2 ^ 32
    decide
  exact ⟨sized, shares_oneFunction, rfl, wire_is_lossless sized shares_oneFunction rfl⟩

def Resolver.askAll (r : Resolver) : List (ScopeQuery × Path) → Surroundings →
    List (Except String (Option LineSpan))
  | [], _ => []
  | (query, file) :: asked, w =>
    let (answer, w) := r.ask query file w
    answer :: r.askAll asked w

/-- They go on agreeing, whatever indexes are kept on the way, as long as two spellings of one path
read alike. -/
theorem resolvers_agree_on_all {asked : List (ScopeQuery × Path)} {w v : Surroundings}
    {setting : Option String} {config : Config} (sized : ∀ e ∈ asked, e.1.IsSized)
    (shared : ∀ e ∈ asked, w.Shares v e.2)
    (alike : ∀ e ∈ asked, ∀ e' ∈ asked, e.2.same e'.2 → w.disk.read e.2 = w.disk.read e'.2)
    (loads : Config.ofSetting v setting = .ok config) (u : Surroundings) :
    (Resolver.ofProgram ["scope"] fun args => CommandLine.run setting args v).askAll asked u =
      Resolver.indexed.askAll asked w := by
  induction asked generalizing w u with
  | nil => rfl
  | cons e asked ih =>
    obtain ⟨query, file⟩ := e
    have first := shared (query, file) List.mem_cons_self
    have hfirst : ((Resolver.ofProgram ["scope"] fun args => CommandLine.run setting args v).ask
        query file u).1 = (Resolver.indexed.ask query file w).1 := by
      rw [ask_run (sized _ List.mem_cons_self) first.absolute first.current' first.counted' loads,
        first.freshIndex, ask_indexed first.current]
    have hmem {e} (he : e ∈ asked) : e ∈ (query, file) :: asked := List.mem_cons_of_mem _ he
    have hshared : ∀ e ∈ asked, (w.index file).2.Shares v e.2 := fun e he =>
      (shared e (hmem he)).index first.absolute (alike _ List.mem_cons_self e (hmem he))
    have halike : ∀ e ∈ asked, ∀ e' ∈ asked, e.2.same e'.2 →
        (w.index file).2.disk.read e.2 = (w.index file).2.disk.read e'.2 := by
      rw [Surroundings.index_disk]
      exact fun e he e' he' => alike e (hmem he) e' (hmem he')
    have hrest := ih (fun e he => sized e (hmem he)) hshared halike u
    exact congrArg₂ List.cons hfirst hrest

end SelectiveTrace
