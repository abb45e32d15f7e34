import SelectiveTrace.Proofs.Sources.Apart
import SelectiveTrace.Proofs.Tracer.Display

/-! Caches that keep what is on disk. As long as the files stay as they are, such a cache gives the lines
of each file whichever files it was asked for before, and however many it had to let go. -/
namespace SelectiveTrace

namespace SourceCache

/-- The lines of a file without a cache: those that were registered, or those on disk. -/
def plainly (c : SourceCache) (w : Surroundings) (file : Path) : Option (List String) :=
  match c.registered.get? file.components with
  | some ls => some ls
  | none => readLines w file

/-- Of the files looked at, the cache keeps nothing but what is on disk. -/
structure Coherent (c : SourceCache) (w : Surroundings) (files : Path → Prop) : Prop where
  kept : ∀ file ls, files file → c.files.get? file.components = some ls →
    readLines w file = some ls

theorem get?_takeRecent {κ α : Type} [DecidableEq κ] {t : Table κ α} {n : Nat} {k : κ} {v : α}
    (h : (t.takeRecent n).get? k = some v) : t.get? k = some v := by
  have hpre : (t.entries.take n) <+: t.entries := List.take_prefix n t.entries
  obtain ⟨rest, hrest⟩ := hpre
  unfold Table.get? Table.takeRecent at h
  obtain ⟨e, he, rfl⟩ := Option.map_eq_some_iff.mp h
  unfold Table.get?
  rw [← hrest, List.find?_append, he]
  rfl

section
variable {c : SourceCache} {w w' : Surroundings} {files : Path → Prop} {file : Path}

theorem coherent_empty (h : c.files = {}) (w : Surroundings) (files : Path → Prop) :
    c.Coherent w files := by
  refine ⟨fun file ls _ hl => ?_⟩
  rw [h] at hl
  cases hl

theorem Coherent.moved (h : c.Coherent w files)
    (same : ∀ file, files file → readLines w' file = readLines w file) : c.Coherent w' files :=
  ⟨fun file ls hf hl => (same file hf).trans (h.kept file ls hf hl)⟩

theorem Coherent.keep (h : c.Coherent w files)
    (alike : ∀ f g, files f → files g → f.components = g.components → readLines w f = readLines w g)
    (hf : files file) {ls : List String} (read : readLines w file = some ls) :
    (c.keep file ls).Coherent w files := by
  refine ⟨fun g ls' hg hl => ?_⟩
  have hins : (c.files.insert file.components ls).get? g.components = some ls' := get?_takeRecent hl
  by_cases he : g.components = file.components
  · rw [he, Table.get?_insert_self] at hins
    cases hins
    exact (alike g file hg hf he).trans read
  · rw [Table.get?_insert_of_ne _ _ he] at hins
    exact h.kept g ls' hg hins

/-- What is asked for is what is there, and the cache stays coherent. -/
theorem Coherent.lines (h : c.Coherent w files)
    (alike : ∀ f g, files f → files g → f.components = g.components → readLines w f = readLines w g)
    (hf : files file) :
    (c.lines w file).1 = c.plainly w file ∧ (c.lines w file).2.Coherent w files ∧
      (c.lines w file).2.registered = c.registered := by
  unfold SourceCache.lines plainly
  cases c.registered.get? file.components with
  | some ls => exact ⟨rfl, h, rfl⟩
  | none =>
    cases hk : c.files.get? file.components with
    | some ls =>
      have hr := h.kept file ls hf hk
      exact ⟨hr.symm, h.keep alike hf hr, rfl⟩
    | none =>
      cases hr : readLines w file with
      | some ls => exact ⟨rfl, h.keep alike hf hr, rfl⟩
      | none => exact ⟨rfl, h, rfl⟩

end

def plainLine (c : SourceCache) (w : Surroundings) (ctx : Context) : String × Nat :=
  let ls := c.plainly w ctx.frame.file
  let source := lineAt ls ctx.frame.line
  if ctx.event.isCall && Tracer.isDecorator source then
    (ls.bind fun ls => Tracer.definition? ls ctx.frame.line).getD (source, ctx.frame.line)
  else (source, ctx.frame.line)

/-- The line that is shown for an event while the files stay as they are. -/
theorem Coherent.shown {c : SourceCache} {w w₁ w₂ : Surroundings} {files : Path → Prop}
    (h : c.Coherent w files)
    (alike : ∀ f g, files f → files g → f.components = g.components → readLines w f = readLines w g)
    (same₁ : ∀ file, files file → readLines w₁ file = readLines w file)
    (same₂ : ∀ file, files file → readLines w₂ file = readLines w file) {ctx : Context}
    (hf : files ctx.frame.file) :
    (c.shown w₁ w₂ ctx).1 = c.plainLine w ctx ∧ (c.shown w₁ w₂ ctx).2.Coherent w files ∧
      (c.shown w₁ w₂ ctx).2.registered = c.registered := by
  have halike : ∀ w', (∀ file, files file → readLines w' file = readLines w file) →
      ∀ f g, files f → files g → f.components = g.components → readLines w' f = readLines w' g := by
    intro w' same f g hf hg he
    rw [same f hf, same g hg]
    exact alike f g hf hg he
  have hplain : ∀ (c' : SourceCache) (w' : Surroundings), c'.registered = c.registered →
      readLines w' ctx.frame.file = readLines w ctx.frame.file →
      c'.plainly w' ctx.frame.file = c.plainly w ctx.frame.file := by
    intro c' w' hc hw
    unfold plainly
    rw [hc, hw]
  obtain ⟨hl₁, hc₁, hr₁⟩ := (h.moved same₁).lines (halike w₁ same₁) hf
  rw [hplain c w₁ rfl (same₁ _ hf)] at hl₁
  have hc₂ : (c.lines w₁ ctx.frame.file).2.Coherent w₂ files :=
    hc₁.moved fun file hfile => (same₂ file hfile).trans (same₁ file hfile).symm
  obtain ⟨hl₂, hc₃, hr₂⟩ := hc₂.lines (halike w₂ same₂) hf
  rw [hplain _ w₂ hr₁ (same₂ _ hf)] at hl₂
  unfold SourceCache.shown behind line plainLine
  dsimp only
  rw [hl₁]
  split
  · rw [hl₂]
    exact ⟨rfl, hc₃.moved fun file hfile => (same₂ file hfile).symm, hr₂.trans hr₁⟩
  · exact ⟨rfl, hc₁.moved fun file hfile => (same₁ file hfile).symm, hr₁⟩

end SourceCache
end SelectiveTrace
