import SelectiveTrace.Proofs.Tracer.Deltas
import SelectiveTrace.Proofs.Tracer.Showing
import SelectiveTrace.Proofs.Value.Distinct

/-! Changes of plain data are visible. A renderer that keeps all of a text shows different data
differently, so a variable that holds other data than before is among the modified ones, also where
watched expressions are shown beside it. -/
namespace SelectiveTrace

namespace Renderer

/-- No custom format, no bound and no normalizing stands between a value and its text. -/
structure IsVerbatim (r : Renderer) : Prop where
  custom : r.custom = []
  unbounded : r.maxLength = none
  exact : r.normalize = false

variable {r : Renderer} {x : String} {v : Value} {text : String}

theorem IsVerbatim.render (h : r.IsVerbatim) (plain : v.IsPlain) : r.render v = .ok v.repr := by
  have hrepr : r.repr v = .ok v.repr := by
    rw [repr, h.custom]
    rfl
  have hfit : r.fit v.repr = Renderer.oneLine v.repr := by
    rw [fit, h.exact, h.unbounded]
    rfl
  rw [Renderer.render, hrepr, Except.map, hfit, Value.oneLine_repr plain]

theorem IsVerbatim.isTotal (h : r.IsVerbatim) : r.IsTotal :=
  isTotal_of_custom (by rw [h.custom]; nofun)

theorem renderAll_cons {b : String × Value} {bs : List (String × Value)}
    {vars : List (String × String)} (h : r.renderAll (b :: bs) = .ok vars) :
    ∃ text rest, r.render b.2 = .ok text ∧ r.renderAll bs = .ok rest ∧
      vars = (b.1, text) :: rest := by
  unfold renderAll at h
  cases ht : r.render b.2 with
  | error e => simp [ht] at h
  | ok text => cases hrest : r.renderAll bs with
    | error e => simp [ht, hrest, Except.map] at h
    | ok rest =>
      simp only [ht, hrest, Except.map, Except.ok.injEq] at h
      exact ⟨text, rest, rfl, rfl, h.symm⟩

theorem get?_renderAll {bindings : List (String × Value)} {vars : List (String × String)}
    (shown : r.renderAll bindings = .ok vars) (bound : Bindings.get? x bindings = some v)
    (told : r.render v = .ok text) : Bindings.get? x vars = some text := by
  induction bindings generalizing vars with
  | nil => cases bound
  | cons b bs ih =>
    obtain ⟨first, rest, hfirst, hrest, rfl⟩ := renderAll_cons shown
    by_cases hx : b.1 = x
    · have hv : b.2 = v := by simpa [Bindings.get?, hx] using bound
      rw [hv, told] at hfirst
      cases hfirst
      simp [Bindings.get?, hx]
    · have hbound : Bindings.get? x bs = some v := by simpa [Bindings.get?, hx] using bound
      simpa [Bindings.get?, hx] using ih hrest hbound

theorem mem_renderAll {bindings : List (String × Value)} {vars : List (String × String)}
    (shown : r.renderAll bindings = .ok vars) (h : (x, text) ∈ vars) :
    ∃ u, (x, u) ∈ bindings ∧ r.render u = .ok text := by
  induction bindings generalizing vars with
  | nil =>
    cases shown
    cases h
  | cons b bs ih =>
    obtain ⟨first, rest, hfirst, hrest, rfl⟩ := renderAll_cons shown
    rcases List.mem_cons.mp h with he | h
    · cases he
      exact ⟨b.2, List.mem_cons_self, hfirst⟩
    · obtain ⟨u, hu, ht⟩ := ih hrest h
      exact ⟨u, List.mem_cons_of_mem b hu, ht⟩

end Renderer

namespace Watch
variable {x source : String} {locals globals : Namespace} {u v : Value}

def IsBare (x : String) : Prop :=
  '.' ∉ x.toList ∧ '[' ∉ x.toList

instance (x : String) : Decidable (IsBare x) :=
  inferInstanceAs (Decidable ('.' ∉ x.toList ∧ '[' ∉ x.toList))

theorem pieces_of_notMem {sep : Char} {cs : List Char} (h : sep ∉ cs) : Text.pieces sep cs = [cs] := by
  induction cs with
  | nil => rfl
  | cons c cs ih =>
    have hne : c ≠ sep := by
      rintro rfl
      exact h List.mem_cons_self
    simp [Text.pieces, ih fun hm => h (List.mem_cons_of_mem c hm), hne]

theorem resolve_bare (bare : IsBare x) (bound : locals.get? x = some v) :
    resolve x locals globals = some v := by
  rw [resolve, Text.split, pieces_of_notMem bare.1, List.map_singleton, String.ofList_toList]
  simp [bound, follow]

theorem not_isBare_of_mem_parts (h : (x, u) ∈ parts source v) : ¬ IsBare x := by
  intro bare
  obtain ⟨hdot, hbracket⟩ := bare
  unfold parts at h
  split at h
  case h_5 => cases h
  all_goals
    obtain ⟨part, -, he⟩ := List.mem_map.mp h
    cases he
    simp at hdot hbracket

/-- What a watch shows under the name of a local is the local's value. -/
theorem eq_of_mem_values {w : Watch} (bare : IsBare x) (bound : locals.get? x = some v)
    (h : (x, u) ∈ w.values locals globals) : u = v := by
  have hself : ∀ s u', resolve s locals globals = some u' → (x, u) = (s, u') → u = v := by
    intro s u' hs he
    cases he
    rw [resolve_bare bare bound] at hs
    exact (Option.some.inj hs).symm
  unfold values at h
  cases hr : resolve w.source locals globals with
  | none =>
    rw [hr] at h
    cases h
  | some u' =>
    rw [hr] at h
    cases w with
    | path s => exact hself s u' hr (List.mem_singleton.mp h)
    | explode s =>
      rcases List.mem_cons.mp h with he | hpart
      · exact hself s u' hr he
      · exact absurd bare (not_isBare_of_mem_parts hpart)

end Watch

namespace Tracer
variable {t : Tracer} {ctx : Context} {x text : String} {v : Value}

theorem get?_addItems {vars items : List (String × String)} (h : Bindings.get? x vars = some text)
    (same : ∀ item ∈ items, item.1 = x → item.2 = text) :
    Bindings.get? x (addItems vars items) = some text := by
  have hsorted : ∀ item ∈ items.mergeSort itemBefore, item.1 = x → item.2 = text := fun item hitem =>
    same item (List.mem_mergeSort.mp hitem)
  unfold addItems
  generalize items.mergeSort itemBefore = sorted at hsorted
  induction sorted generalizing vars with
  | nil => exact h
  | cons item sorted ih =>
    refine ih ?_ fun other hother => hsorted other (List.mem_cons_of_mem item hother)
    dsimp only
    by_cases hx : item.1 = x
    · rw [hx, Bindings.get?_set_self, hsorted item List.mem_cons_self hx]
    · rw [Bindings.get?_set_of_ne _ _ (Ne.symm hx)]
      exact h

theorem get?_addWatches {watches : List Watch} {vars vars' : List (String × String)}
    (bare : Watch.IsBare x) (bound : ctx.frame.locals.get? x = some v)
    (told : t.renderer.render v = .ok text) (h : Bindings.get? x vars = some text)
    (added : t.addWatches ctx watches vars = .ok vars') : Bindings.get? x vars' = some text := by
  induction watches generalizing vars with
  | nil =>
    cases added
    exact h
  | cons watch watches ih =>
    unfold addWatches at added
    cases hi : watch.items ctx.frame.locals ctx.globals t.renderer with
    | error e => simp [hi] at added
    | ok items =>
      rw [hi] at added
      refine ih (get?_addItems h ?_) added
      rintro ⟨label, shown⟩ hitem rfl
      obtain ⟨u, hu, hshown⟩ := Renderer.mem_renderAll hi hitem
      rw [Watch.eq_of_mem_values bare bound hu, told] at hshown
      exact (Except.ok.inj hshown).symm

/-- A local is shown under its name. -/
theorem get?_localReprs {vars : List (String × String)} (bare : t.watches = [] ∨ Watch.IsBare x)
    (bound : ctx.frame.locals.get? x = some v) (told : t.renderer.render v = .ok text)
    (shown : t.localReprs ctx = .ok vars) : Bindings.get? x vars = some text := by
  unfold localReprs at shown
  cases hr : t.renderer.renderAll ctx.frame.locals.bindings with
  | error e => simp [hr] at shown
  | ok locals =>
    rw [hr] at shown
    have hlocal := Renderer.get?_renderAll hr bound told
    rcases bare with hnone | hbare
    · rw [hnone] at shown
      cases shown
      exact hlocal
    · exact get?_addWatches hbare bound told hlocal shown

end Tracer

/-- A renderer that keeps all of a text shows plain data as it stands, and different data differently.
A local that holds other plain data than when its frame was shown last is therefore among the modified
variables of the frame. -/
theorem distinct_data_never_shown_alike {r : Renderer} (verbatim : r.IsVerbatim) {v v' : Value}
    (h : v.IsPlain) (h' : v'.IsPlain) :
    Renderer.oneLine v.repr = v.repr ∧ r.render v = .ok v.repr ∧
      (r.render v = r.render v' → v = v') ∧
      ∀ (t : Tracer) (before after : Context) (x : String), t.renderer = r →
        (t.watches = [] ∨ Watch.IsBare x) → before.frame.locals.get? x = some v →
        after.frame.locals.get? x = some v' → v ≠ v' →
        ∃ old new, t.localReprs before = .ok old ∧ t.localReprs after = .ok new ∧
          ∀ (s : Session) (frame : FrameId), s.snapshot frame = old →
            (x, v'.repr) ∈ (s.diff frame new).1.modified := by
  have hinj : v.repr = v'.repr → v = v' := Value.repr_inj h h'
  refine ⟨Value.oneLine_repr h, verbatim.render h, ?_, ?_⟩
  · intro same
    rw [verbatim.render h, verbatim.render h'] at same
    exact hinj (Except.ok.inj same)
  · rintro t before after x rfl bare hv hv' hne
    obtain ⟨old, hold⟩ := Tracer.localReprs_total verbatim.isTotal before
    obtain ⟨new, hnew⟩ := Tracer.localReprs_total verbatim.isTotal after
    refine ⟨old, new, hold, hnew, ?_⟩
    rintro s frame rfl
    have hwas := Tracer.get?_localReprs bare hv (verbatim.render h) hold
    have his := Tracer.get?_localReprs bare hv' (verbatim.render h') hnew
    exact ((VarDiff.isExact_between _ new).modified _).mpr
      ⟨Bindings.mem_of_get? his, v.repr, hwas, fun same => hne (hinj same)⟩

def quotedComma : Value :=
  .dict [(.tuple [.int (-1)], .set [.str "a', 'b"])]

def twoStrings : Value :=
  .dict [(.tuple [.int (-1)], .set [.str "a", .str "b"])]

theorem isPlain_quotedComma : quotedComma.IsPlain :=
  .dict (by simpa using .tuple (by simpa using .int (-1)))
    (by simpa using .set (by simpa using .str _))

theorem isPlain_twoStrings : twoStrings.IsPlain :=
  .dict (by simpa using .tuple (by simpa using .int (-1)))
    (by simpa using .set (by simpa using ⟨.str "a", .str "b"⟩))

def lineWith (data : Value) : Context where
  frame := { (default : Frame) with locals := ⟨[("data", data)]⟩ }
  event := .line
  frames := {}
  globals := {}

theorem distinct_data_never_shown_alike_of_quoted_comma :
    ∃ old new,
      ({ renderer := { maxLength := none }, watches := [.explode "data"] } : Tracer).localReprs
        (lineWith quotedComma) = .ok old ∧
      ({ renderer := { maxLength := none }, watches := [.explode "data"] } : Tracer).localReprs
        (lineWith twoStrings) = .ok new ∧
      ∀ (s : Session) (frame : FrameId), s.snapshot frame = old →
        ("data", "\x7b(-1,): \x7b'a', 'b'\x7d\x7d") ∈ (s.diff frame new).1.modified :=
  (distinct_data_never_shown_alike ⟨rfl, rfl, rfl⟩ isPlain_quotedComma isPlain_twoStrings).2.2.2
    { renderer := { maxLength := none }, watches := [.explode "data"] } (lineWith quotedComma)
    (lineWith twoStrings) "data" rfl (.inr (by decide)) rfl rfl
    (by simp [quotedComma, twoStrings])

end SelectiveTrace
