import SelectiveTrace.Proofs.Tracer.Showing
import SelectiveTrace.Proofs.Value.Addresses

/-! Long texts are cut in the middle. What is shown of a value is one line: the whole text if it fits, and
otherwise both of its ends around an ellipsis. The ellipsis is never left out, so under a limit below three
it is all that is shown, and too long. -/
namespace SelectiveTrace

namespace Text
variable {m kept : Nat} {c : Char} {cs cut rest : List Char}

def ellipsis : List Char := ['.', '.', '.']

/-- `cut` is a head and a tail of `cs` around an ellipsis, `kept` characters of `cs` in all, and about as
many from either end. -/
def IsCut (kept : Nat) (cs cut : List Char) : Prop :=
  ∃ head tail, head <+: cs ∧ tail <:+ cs ∧ cut = head ++ ellipsis ++ tail ∧
    head.length + tail.length = kept ∧ head.length ≤ tail.length ∧ tail.length ≤ head.length + 1

theorem isCut_shortenChars (h : m < cs.length) : IsCut (m - 3) cs (shortenChars m cs) := by
  unfold shortenChars
  rw [if_neg (Nat.not_le.mpr h)]
  refine ⟨_, _, List.take_prefix _ _, List.drop_suffix _ _, rfl, ?_⟩
  simp only [List.length_take, List.length_drop]
  omega

namespace IsCut

theorem length_eq (h : IsCut kept cs cut) : cut.length = kept + 3 := by
  obtain ⟨head, tail, -, -, rfl, hkept, -, -⟩ := h
  simp only [ellipsis, List.length_append, List.length_cons, List.length_nil]
  omega

theorem eq_ellipsis (h : IsCut 0 cs cut) : cut = ellipsis := by
  obtain ⟨head, tail, -, -, rfl, hkept, -, -⟩ := h
  have hhead : head = [] := List.eq_nil_of_length_eq_zero (by omega)
  have htail : tail = [] := List.eq_nil_of_length_eq_zero (by omega)
  rw [hhead, htail]
  rfl

theorem mem (h : IsCut kept cs cut) (hc : c ∈ cut) : c ∈ cs ∨ c ∈ ellipsis := by
  obtain ⟨head, tail, hhead, htail, rfl, -⟩ := h
  rcases List.mem_append.mp hc with hc | hc
  · rcases List.mem_append.mp hc with hc | hc
    · exact Or.inl (hhead.subset hc)
    · exact Or.inr hc
  · exact Or.inl (htail.subset hc)

end IsCut

/-- Too small a limit leaves room for the ellipsis alone, and the ellipsis has no room in it. -/
theorem shortenChars_eq_ellipsis (small : m < 3) (h : m < cs.length) :
    shortenChars m cs = ellipsis := by
  have hcut := isCut_shortenChars h
  rw [Nat.sub_eq_zero_of_le (Nat.le_of_lt small)] at hcut
  exact hcut.eq_ellipsis

theorem shortenChars_shortenChars (m : Nat) (cs : List Char) :
    shortenChars m (shortenChars m cs) = shortenChars m cs := by
  rcases Nat.lt_or_ge m cs.length with hlong | hfits
  · rcases Nat.lt_or_ge m 3 with hsmall | hroom
    · rw [shortenChars_eq_ellipsis hsmall hlong]
      exact shortenChars_eq_ellipsis hsmall hsmall
    · apply shortenChars_of_length_le
      exact length_shortenChars hroom
  · rw [shortenChars_of_length_le hfits, shortenChars_of_length_le hfits]

theorem mem_of_mem_shortenChars (h : c ∈ shortenChars m cs) : c ∈ cs ∨ c ∈ ellipsis := by
  rcases Nat.lt_or_ge m cs.length with hlong | hfits
  · exact (isCut_shortenChars hlong).mem h
  · rw [shortenChars_of_length_le hfits] at h
    exact Or.inl h

section
variable {s : String}

theorem toList_shorten (m : Nat) (s : String) : (shorten m s).toList = shortenChars m s.toList :=
  String.toList_ofList

theorem shorten_of_length_le (h : s.length ≤ m) : shorten m s = s := by
  rw [← String.length_toList] at h
  rw [shorten, shortenChars_of_length_le h, String.ofList_toList]

theorem isCut_shorten (h : m < s.length) : IsCut (m - 3) s.toList (shorten m s).toList := by
  rw [← String.length_toList] at h
  rw [toList_shorten]
  exact isCut_shortenChars h

theorem length_shorten_of_lt (h : m < s.length) : (shorten m s).length = max m 3 := by
  rw [← String.length_toList, (isCut_shorten h).length_eq]
  omega

theorem shorten_shorten (m : Nat) (s : String) : shorten m (shorten m s) = shorten m s := by
  rw [shorten, toList_shorten, shortenChars_shortenChars, shorten]

end

theorem afterAddress?_suffix (h : afterAddress? cs = some rest) : rest <:+ cs := by
  unfold afterAddress? at h
  split at h
  · dsimp only at h
    split at h
    · cases h
      exact (List.dropWhile_suffix isHex).trans (List.drop_suffix 6 cs)
    · cases h
  · cases h

/-- Addresses are left out, and nothing is put in their place. -/
theorem dropAddresses_sublist (cs : List Char) : (dropAddresses cs).Sublist cs := by
  induction cs using dropAddresses.induct with
  | case1 => simp [dropAddresses]
  | case2 c cs rest h _ ih =>
    rw [dropAddresses_of_some h]
    exact ih.trans (afterAddress?_suffix h).sublist
  | case3 c cs h ih =>
    rw [dropAddresses_of_none h]
    exact ih.cons_cons c

end Text

namespace Renderer
variable {r : Renderer} {v : Value} {m : Nat}

def flat (r : Renderer) (s : String) : String :=
  if r.normalize then Text.normalize (oneLine s) else oneLine s

theorem unbroken_oneLine (s : String) : ∀ c ∈ (oneLine s).toList, c ≠ '\r' ∧ c ≠ '\n' := by
  intro c hc
  rw [oneLine, String.toList_ofList] at hc
  simpa using (List.mem_filter.mp hc).2

theorem unbroken_flat (r : Renderer) (s : String) :
    ∀ c ∈ (r.flat s).toList, c ≠ '\r' ∧ c ≠ '\n' := by
  intro c hc
  unfold flat at hc
  split at hc
  · rw [Text.normalize, String.toList_ofList] at hc
    exact unbroken_oneLine s c ((Text.dropAddresses_sublist _).subset hc)
  · exact unbroken_oneLine s c hc

theorem fit_of_limit (h : r.maxLength = some m) (s : String) :
    r.fit s = Text.shorten m (r.flat s) := by
  unfold fit flat
  rw [h]

theorem exists_repr_of_render {text : String} (h : r.render v = .ok text) :
    ∃ s, r.repr v = .ok s ∧ r.fit s = text := by
  unfold render at h
  cases hs : r.repr v with
  | error e =>
    rw [hs] at h
    cases h
  | ok s =>
    rw [hs] at h
    cases h
    exact ⟨s, rfl, rfl⟩

/-- What is shown of a value under a limit `m`, whatever the value's texts and the custom formats are, as
long as these do not fail: one line, and all of it if it has at most `m` characters. Otherwise both of its
ends are shown around an ellipsis, in `m` characters if there are three at least for the ellipsis, and in
three, which is too many, if not. To be cut once more changes nothing. -/
theorem render_keeps_both_ends (config : TracerConfig) (limit : config.maxLength = some m)
    (positive : 1 ≤ m) (custom : List CustomFormat)
    (total : ∀ f ∈ custom, ∀ v, ∃ text, f.format v = .ok text) (v : Value) :
    let r : Renderer := { custom, maxLength := config.lengthLimit, normalize := config.normalize }
    ∃ s text, r.repr v = .ok s ∧ r.render v = .ok text ∧
      (∀ c ∈ text.toList, c ≠ '\r' ∧ c ≠ '\n') ∧
      ((r.flat s).length ≤ m → text = r.flat s) ∧
      (m < (r.flat s).length →
        Text.IsCut (m - 3) (r.flat s).toList text.toList ∧ text.length = max m 3) ∧
      (text.length ≤ m ↔ 3 ≤ m ∨ (r.flat s).length ≤ m) ∧
      Text.shorten m text = text := by
  intro r
  have hlimit : r.maxLength = some m := by
    have hpositive : decide (0 < m) = true := decide_eq_true positive
    have hfilter : config.lengthLimit = some m := by
      rw [TracerConfig.lengthLimit, limit, Option.filter_some, if_pos hpositive]
    exact hfilter
  obtain ⟨text, htext⟩ := isTotal_of_custom (r := r) total v
  obtain ⟨s, hs, hfit⟩ := exists_repr_of_render htext
  rw [fit_of_limit hlimit] at hfit
  subst hfit
  refine ⟨s, _, hs, htext, ?_, Text.shorten_of_length_le,
    fun hlong => ⟨Text.isCut_shorten hlong, Text.length_shorten_of_lt hlong⟩, ?_,
    Text.shorten_shorten m _⟩
  · intro c hc
    rw [Text.toList_shorten] at hc
    rcases Text.mem_of_mem_shortenChars hc with hc | hc
    · exact r.unbroken_flat s c hc
    · have hdot : c = '.' := by simpa [Text.ellipsis] using hc
      subst hdot
      decide
  · rcases Nat.lt_or_ge m (r.flat s).length with hlong | hfits
    · rw [Text.length_shorten_of_lt hlong]
      omega
    · rw [Text.shorten_of_length_le hfits]
      omega

def threeLines : CustomFormat :=
  ⟨fun _ => true, fun v => .ok ("head\r\n" ++ v.repr ++ "\ntail")⟩

theorem render_keeps_both_ends_of_three_lines :
    let config : TracerConfig := { maxLength := some 8, normalize := true }
    let r : Renderer := { custom := [threeLines], maxLength := config.lengthLimit, normalize := true }
    config.maxLength = some 8 ∧ 1 ≤ 8 ∧
      (∀ f ∈ [threeLines], ∀ v, ∃ text, f.format v = .ok text) ∧
      ∃ s text, r.repr (.str "middle") = .ok s ∧ r.render (.str "middle") = .ok text ∧
        Text.IsCut 5 (r.flat s).toList text.toList ∧ text.length = 8 ∧ Text.shorten 8 text = text := by
  intro config r
  have htotal : ∀ f ∈ [threeLines], ∀ v, ∃ text, f.format v = .ok text := by
    intro f hf v
    rw [List.mem_singleton.mp hf]
    exact ⟨_, rfl⟩
  obtain ⟨s, text, hs, htext, -, -, hlong, -, hagain⟩ :=
    render_keeps_both_ends config rfl (by decide) [threeLines] htotal (.str "middle")
  have hfull : 8 < (r.flat s).length := by
    cases hs
    cbv
  exact ⟨rfl, by decide, htotal, s, text, hs, htext, (hlong hfull).1, (hlong hfull).2, hagain⟩

/-- A limit of two is exceeded. -/
theorem ellipsis_exceeds_small_limit :
    let config : TracerConfig := { maxLength := some 2 }
    ({ maxLength := config.lengthLimit } : Renderer).render (.str "abc") = .ok "..." ∧
      ¬"...".length ≤ 2 := by
  cbv

end Renderer
end SelectiveTrace
