import Mathlib.Data.List.Find
import SelectiveTrace.Proofs.Tracer.Showing
import SelectiveTrace.Proofs.Value.Addresses

/-! Watched values in two runs that put functions and objects at different addresses. Every value is
shown alike, but the label of an entry spells its key as it stands, with the addresses in it. -/
namespace SelectiveTrace

namespace Value
variable {v v' w : Value} {a least : Nat} {key : String}

/-- Two values that are the same but for addresses, each of which has the digits it takes to be
dropped. -/
structure Moved (v v' : Value) : Prop where
  same : v.SameButAddresses v'
  placed : v.PlacedFrom 0x1000
  placed' : v'.PlacedFrom 0x1000

theorem display_relocate (ha : 0x1000 ≤ a) (placed : v.PlacedFrom 0x1000) :
    Text.Readdressed v.display.toList (v.relocate a).display.toList := by
  have hrepr := readdressed_relocate ha placed
  cases v with
  | str s => exact .refl _
  | _ => simpa only [relocate, display, chars] using hrepr

/-- A key without addresses names the same part wherever things lie. -/
theorem child_relocate (ha : 0x1000 ≤ a) (placed : v.PlacedFrom 0x1000)
    (clean : Text.normalize key = key) :
    (v.relocate a).child key = (v.child key).map (relocate a) := by
  cases placed with
  | none | bool | int | float | str | set | callable => rfl
  | list | tuple =>
    simp only [relocate, relocateItems_eq, child, List.getElem?_map]
    cases Text.natural? 64 key <;> rfl
  | object =>
    simp only [relocate, relocateAttributes_eq, child, List.find?_map, Option.map_map]
    rfl
  | @dict entries keys =>
    have hnamed : ∀ e ∈ entries,
        (decide ((e.1.relocate a).display = key) || decide ((e.1.relocate a).repr = key)) =
          (decide (e.1.display = key) || decide (e.1.repr = key)) := by
      intro e he
      rw [decide_eq_decide.mpr ((display_relocate ha (keys e he)).eq_iff clean),
        decide_eq_decide.mpr (Text.Readdressed.eq_iff (readdressed_relocate ha (keys e he)) clean)]
    simp only [relocate, relocateEntries_eq, child, List.find?_map, Option.map_map]
    exact congrArg (Option.map _) (List.find?_congr hnamed)

theorem PlacedFrom.child (placed : v.PlacedFrom least) (h : v.child key = some w) :
    w.PlacedFrom least := by
  cases placed with
  | none | bool | int | float | str | set | callable => cases h
  | list inner | tuple inner =>
    obtain ⟨i, -, hi⟩ := Option.bind_eq_some_iff.mp h
    exact inner w (List.mem_of_getElem? hi)
  | object inner =>
    obtain ⟨b, hb, rfl⟩ := Option.map_eq_some_iff.mp h
    exact inner b (List.mem_of_find?_eq_some hb)
  | dict _ values =>
    obtain ⟨e, he, rfl⟩ := Option.map_eq_some_iff.mp h
    exact values e (List.mem_of_find?_eq_some he)

end Value

namespace Namespace
variable {ns ns' : Namespace} {a : Nat} {name : String} {v : Value}

def relocate (a : Nat) (ns : Namespace) : Namespace :=
  ⟨ns.bindings.map fun b => (b.1, b.2.relocate a)⟩

theorem get?_relocate (ns : Namespace) (a : Nat) (name : String) :
    (ns.relocate a).get? name = (ns.get? name).map (Value.relocate a) := by
  simp only [get?, relocate, Bindings.get?, List.find?_map, Option.map_map]
  rfl

theorem relocate_relocate (a b : Nat) (ns : Namespace) :
    (ns.relocate a).relocate b = ns.relocate b := by
  simp only [relocate, List.map_map]
  congr 1
  exact List.map_congr_left fun c _ => Prod.ext rfl (Value.relocate_relocate a b c.2)

structure Moved (ns ns' : Namespace) : Prop where
  same : ns.relocate 0 = ns'.relocate 0
  placed : ∀ b ∈ ns.bindings, b.2.PlacedFrom 0x1000
  placed' : ∀ b ∈ ns'.bindings, b.2.PlacedFrom 0x1000

theorem Moved.relocate_eq (h : ns.Moved ns') (a : Nat) : ns.relocate a = ns'.relocate a := by
  rw [← relocate_relocate 0 a ns, h.same, relocate_relocate]

theorem placed_of_get? (placed : ∀ b ∈ ns.bindings, b.2.PlacedFrom 0x1000)
    (h : ns.get? name = some v) : v.PlacedFrom 0x1000 := by
  obtain ⟨b, hb, rfl⟩ := Option.map_eq_some_iff.mp h
  exact placed b (List.mem_of_find?_eq_some hb)

end Namespace

namespace Renderer
variable {r : Renderer}

def shown (r : Renderer) (b : String × Value) : String × String :=
  (b.1, r.fit b.2.repr)

theorem renderAll_eq (custom : r.custom = []) (bs : List (String × Value)) :
    r.renderAll bs = .ok (bs.map r.shown) := by
  induction bs with
  | nil => rfl
  | cons b bs ih =>
    simp only [renderAll, render_eq custom, ih]
    rfl

end Renderer

namespace Watch
variable {source : String} {locals locals' globals globals' : Namespace} {v v' w : Value} {a : Nat}
  {r : Renderer}

def NamesNoAddress (source : String) : Prop :=
  ∀ part ∈ (Text.split '.' source).tail, Text.normalize part = part

instance (source : String) : Decidable (NamesNoAddress source) :=
  inferInstanceAs (Decidable (∀ part ∈ (Text.split '.' source).tail, Text.normalize part = part))

theorem follow_relocate {path : List String} (ha : 0x1000 ≤ a) (placed : v.PlacedFrom 0x1000)
    (clean : ∀ part ∈ path, Text.normalize part = part) :
    follow (v.relocate a) path = (follow v path).map (Value.relocate a) := by
  induction path generalizing v with
  | nil => rfl
  | cons part path ih =>
    rw [follow, follow, Value.child_relocate ha placed (clean part List.mem_cons_self)]
    cases hc : v.child part with
    | none => rfl
    | some w => exact ih (placed.child hc) fun p hp => clean p (List.mem_cons_of_mem part hp)

theorem placed_of_follow {path : List String} (placed : v.PlacedFrom 0x1000)
    (h : follow v path = some w) : w.PlacedFrom 0x1000 := by
  induction path generalizing v with
  | nil =>
    cases h
    exact placed
  | cons part path ih =>
    obtain ⟨u, hu, hw⟩ := Option.bind_eq_some_iff.mp h
    exact ih (placed.child hu) hw

theorem placed_of_head {head : String} (hl : ∀ b ∈ locals.bindings, b.2.PlacedFrom 0x1000)
    (hg : ∀ b ∈ globals.bindings, b.2.PlacedFrom 0x1000)
    (h : (locals.get? head).or (globals.get? head) = some v) : v.PlacedFrom 0x1000 := by
  rcases Option.or_eq_some_iff.mp h with h | ⟨-, h⟩
  · exact Namespace.placed_of_get? hl h
  · exact Namespace.placed_of_get? hg h

theorem placed_of_resolve (hl : ∀ b ∈ locals.bindings, b.2.PlacedFrom 0x1000)
    (hg : ∀ b ∈ globals.bindings, b.2.PlacedFrom 0x1000)
    (h : resolve source locals globals = some v) : v.PlacedFrom 0x1000 := by
  unfold resolve at h
  split at h
  · cases h
  · obtain ⟨u, hu, hv⟩ := Option.bind_eq_some_iff.mp h
    exact placed_of_follow (placed_of_head hl hg hu) hv

theorem resolve_relocate (ha : 0x1000 ≤ a) (clean : NamesNoAddress source)
    (hl : ∀ b ∈ locals.bindings, b.2.PlacedFrom 0x1000)
    (hg : ∀ b ∈ globals.bindings, b.2.PlacedFrom 0x1000) :
    resolve source (locals.relocate a) (globals.relocate a) =
      (resolve source locals globals).map (Value.relocate a) := by
  unfold NamesNoAddress at clean
  unfold resolve
  split
  · rfl
  · rename_i head path hpath
    rw [hpath] at clean
    rw [Namespace.get?_relocate, Namespace.get?_relocate, ← Option.map_or]
    cases h : (locals.get? head).or (globals.get? head) with
    | none => rfl
    | some v => exact follow_relocate ha (placed_of_head hl hg h) clean

/-- A path that holds no address leads to the same place in both runs, or in both nowhere. -/
theorem resolve_moved (locally : locals.Moved locals') (globally : globals.Moved globals')
    (clean : NamesNoAddress source) :
    (resolve source locals globals = none ∧ resolve source locals' globals' = none) ∨
      ∃ v v', resolve source locals globals = some v ∧ resolve source locals' globals' = some v' ∧
        v.Moved v' := by
  have hmoved : (resolve source locals globals).map (Value.relocate 0x1000) =
      (resolve source locals' globals').map (Value.relocate 0x1000) := by
    rw [← resolve_relocate (Nat.le_refl _) clean locally.placed globally.placed,
      ← resolve_relocate (Nat.le_refl _) clean locally.placed' globally.placed',
      locally.relocate_eq, globally.relocate_eq]
  cases h : resolve source locals globals with
  | none => cases h' : resolve source locals' globals' with
    | none => exact .inl ⟨rfl, rfl⟩
    | some v' => simp [h, h'] at hmoved
  | some v => cases h' : resolve source locals' globals' with
    | none => simp [h, h'] at hmoved
    | some v' =>
      rw [h, h'] at hmoved
      exact .inr ⟨v, v', rfl, rfl, Value.sameButAddresses_of_relocate_eq (Option.some.inj hmoved),
        placed_of_resolve locally.placed globally.placed h,
        placed_of_resolve locally.placed' globally.placed' h'⟩

/-! The labels of the parts of a value, and their texts. -/

def keyTexts : Value → List String
  | .dict entries => entries.map fun e => e.1.repr
  | _ => []

def keysAt (source : String) (ctx : Context) : Option (List String) :=
  (resolve source ctx.frame.locals ctx.globals).map keyTexts

def freed (item : String × String) : String × String :=
  (Text.normalize item.1, item.2)

theorem freed_parts (normalize : r.normalize = true) (ha : 0x1000 ≤ a)
    (placed : v.PlacedFrom 0x1000) :
    ((parts source (v.relocate a)).map r.shown).map freed =
      ((parts source v).map r.shown).map freed := by
  cases placed with
  | none | bool | int | float | str | set | callable => rfl
  | object inner =>
    simp only [Value.relocate, Value.relocateAttributes_eq, parts, List.map_map]
    refine List.map_congr_left fun b hb => ?_
    simp [Renderer.shown, freed, ← Renderer.fit_repr_relocate normalize ha (inner b hb)]
  | dict keys values =>
    simp only [Value.relocate, Value.relocateEntries_eq, parts, List.map_map]
    refine List.map_congr_left fun e he => ?_
    have hlabel : Text.Readdressed (source ++ "[" ++ e.1.repr ++ "]").toList
        (source ++ "[" ++ (e.1.relocate a).repr ++ "]").toList := by
      simp only [String.toList_append]
      exact ((Value.readdressed_relocate ha (keys e he)).prepend _).append (.refl _)
    simp [Renderer.shown, freed, ← Renderer.fit_repr_relocate normalize ha (values e he),
      hlabel.normalize_eq]
  | list inner | tuple inner =>
    simp only [Value.relocate, Value.relocateItems_eq, parts, List.map_map, List.zipIdx_map]
    refine List.map_congr_left fun b hb => ?_
    have hitem := inner b.1 (List.fst_mem_of_mem_zipIdx hb)
    simp [Renderer.shown, freed, ← Renderer.fit_repr_relocate normalize ha hitem]

theorem labels_parts_of_not_dict (h : ∀ entries, v ≠ .dict entries) (source : String) (a : Nat) :
    (parts source (v.relocate a)).map Prod.fst = (parts source v).map Prod.fst := by
  cases v with
  | dict entries => exact absurd rfl (h entries)
  | none | bool | int | float | str | set | callable => rfl
  | object =>
    simp only [Value.relocate, Value.relocateAttributes_eq, parts, List.map_map]
    rfl
  | list | tuple =>
    simp only [Value.relocate, Value.relocateItems_eq, parts, List.map_map, List.zipIdx_map]
    rfl

theorem labels_parts_dict (source : String) (entries : List (Value × Value)) :
    (parts source (.dict entries)).map Prod.fst =
      (keyTexts (.dict entries)).map fun text => source ++ "[" ++ text ++ "]" := by
  simp only [parts, keyTexts, List.map_map]
  rfl

theorem label_injective (source : String) :
    Function.Injective fun text => source ++ "[" ++ text ++ "]" := by
  intro text text' h
  simpa using h

theorem dict_of_sameButAddresses {entries : List (Value × Value)}
    (same : (Value.dict entries).SameButAddresses v') : ∃ entries', v' = .dict entries' := by
  unfold Value.SameButAddresses at same
  cases v' <;> simp only [Value.relocate, reduceCtorEq] at same
  exact ⟨_, rfl⟩

/-- The labels are the same where the texts of the keys are. -/
theorem labels_parts_iff (same : v.SameButAddresses v') (source : String) :
    (parts source v).map Prod.fst = (parts source v').map Prod.fst ↔ keyTexts v = keyTexts v' := by
  by_cases hv : ∃ entries, v = .dict entries
  · obtain ⟨entries, rfl⟩ := hv
    obtain ⟨entries', rfl⟩ := dict_of_sameButAddresses same
    rw [labels_parts_dict, labels_parts_dict]
    exact (List.map_injective_iff.mpr (label_injective source)).eq_iff
  · have hnot : ∀ entries, v ≠ .dict entries := fun entries he => hv ⟨entries, he⟩
    have hnot' : ∀ entries, v' ≠ .dict entries := by
      rintro entries rfl
      obtain ⟨entries', he⟩ := dict_of_sameButAddresses same.symm
      exact hnot entries' he
    have hnone {u : Value} (hu : ∀ entries, u ≠ .dict entries) : keyTexts u = [] := by
      unfold keyTexts
      split
      · exact absurd rfl (hu _)
      · rfl
    rw [← labels_parts_of_not_dict hnot source 0, ← labels_parts_of_not_dict hnot' source 0, same,
      hnone hnot, hnone hnot']
    simp

/-- Items that are the same but for addresses in labels are the same where the labels are. -/
theorem eq_iff_of_freed {items items' : List (String × String)}
    (h : items.map freed = items'.map freed) :
    items = items' ↔ items.map Prod.fst = items'.map Prod.fst := by
  have htexts : items.map Prod.snd = items'.map Prod.snd := by
    simpa [freed, Function.comp_def] using congrArg (List.map Prod.snd) h
  refine ⟨fun he => he ▸ rfl, fun hlabels => ?_⟩
  rw [List.zip_of_prod hlabels htexts]
  exact (List.zip_of_prod rfl rfl).symm

/-! The items of a watch in both runs. -/

theorem items_eq (custom : r.custom = []) (w : Watch) (locals globals : Namespace) :
    w.items locals globals r = .ok ((w.values locals globals).map r.shown) :=
  Renderer.renderAll_eq custom _

theorem values_nowhere {w : Watch} (h : resolve w.source locals globals = none) :
    w.values locals globals = [] := by
  simp only [values, h]

theorem values_path (h : resolve source locals globals = some v) :
    (Watch.path source).values locals globals = [(source, v)] := by
  simp only [values, Watch.source, h]

theorem values_explode (h : resolve source locals globals = some v) :
    (Watch.explode source).values locals globals = (source, v) :: parts source v := by
  simp only [values, Watch.source, h]

theorem shown_moved (normalize : r.normalize = true) (moved : v.Moved v') (label : String) :
    r.shown (label, v) = r.shown (label, v') := by
  simp only [Renderer.shown, Renderer.fit_repr_relocate normalize (Nat.le_refl _) moved.placed,
    Renderer.fit_repr_relocate normalize (Nat.le_refl _) moved.placed', moved.same.relocate_eq]

/-- The parts of the value are shown alike, but for addresses in their labels. -/
theorem freed_parts_moved (normalize : r.normalize = true) (moved : v.Moved v') (source : String) :
    ((parts source v).map r.shown).map freed = ((parts source v').map r.shown).map freed := by
  rw [← freed_parts normalize (Nat.le_refl _) moved.placed, moved.same.relocate_eq,
    freed_parts normalize (Nat.le_refl _) moved.placed']

theorem items_path_moved (normalize : r.normalize = true) (custom : r.custom = [])
    (locally : locals.Moved locals') (globally : globals.Moved globals')
    (clean : NamesNoAddress source) :
    (Watch.path source).items locals globals r = (Watch.path source).items locals' globals' r := by
  rw [items_eq custom, items_eq custom]
  rcases resolve_moved locally globally clean with ⟨h, h'⟩ | ⟨v, v', h, h', moved⟩
  · rw [values_nowhere (w := .path source) h, values_nowhere (w := .path source) h']
  · rw [values_path h, values_path h', List.map_singleton, List.map_singleton,
      shown_moved normalize moved]

theorem items_explode_moved (normalize : r.normalize = true) (custom : r.custom = [])
    (locally : locals.Moved locals') (globally : globals.Moved globals')
    (clean : NamesNoAddress source) :
    ∃ items items', (Watch.explode source).items locals globals r = .ok items ∧
      (Watch.explode source).items locals' globals' r = .ok items' ∧
      items.map freed = items'.map freed ∧
      (items = items' ↔ (resolve source locals globals).map keyTexts =
        (resolve source locals' globals').map keyTexts) := by
  refine ⟨_, _, items_eq custom _ _ _, items_eq custom _ _ _, ?_⟩
  rcases resolve_moved locally globally clean with ⟨h, h'⟩ | ⟨v, v', h, h', moved⟩
  · rw [values_nowhere (w := .explode source) h, values_nowhere (w := .explode source) h', h, h']
    simp
  · have hparts := freed_parts_moved normalize moved source
    have hlabels (u : Value) : ((parts source u).map r.shown).map Prod.fst =
        (parts source u).map Prod.fst := List.map_map
    rw [values_explode h, values_explode h', List.map_cons, List.map_cons,
      shown_moved normalize moved, h, h', List.map_cons, List.map_cons, hparts]
    refine ⟨rfl, ?_⟩
    rw [List.cons_inj_right, eq_iff_of_freed hparts, hlabels, hlabels, labels_parts_iff moved.same,
      Option.map_some, Option.map_some, Option.some_inj]

end Watch

namespace Tracer
variable {t : Tracer} {ctx ctx' : Context}

theorem addWatches_congr {watches : List Watch}
    (same : ∀ w ∈ watches, w.items ctx.frame.locals ctx.globals t.renderer =
      w.items ctx'.frame.locals ctx'.globals t.renderer) (vars : List (String × String)) :
    t.addWatches ctx watches vars = t.addWatches ctx' watches vars := by
  induction watches generalizing vars with
  | nil => rfl
  | cons w watches ih =>
    rw [addWatches, addWatches, same w List.mem_cons_self]
    split
    · rfl
    · exact ih (fun w' hw' => same w' (List.mem_cons_of_mem w hw')) _

theorem renderAll_moved {ns ns' : Namespace} {r : Renderer} (normalize : r.normalize = true)
    (custom : r.custom = []) (moved : ns.Moved ns') :
    r.renderAll ns.bindings = r.renderAll ns'.bindings := by
  have hshown {ns : Namespace} (placed : ∀ b ∈ ns.bindings, b.2.PlacedFrom 0x1000) :
      (ns.relocate 0x1000).bindings.map r.shown = ns.bindings.map r.shown := by
    rw [Namespace.relocate, List.map_map]
    refine List.map_congr_left fun b hb => ?_
    simp only [Function.comp, Renderer.shown,
      ← Renderer.fit_repr_relocate normalize (Nat.le_refl _) (placed b hb)]
  rw [Renderer.renderAll_eq custom, Renderer.renderAll_eq custom, ← hshown moved.placed,
    moved.relocate_eq, hshown moved.placed']

/-- Two runs put functions and objects at different addresses. A path that holds no address shows the
same texts in both, under labels that are the same but for addresses; the labels are the same exactly
where the keys have the same texts, in which addresses stand. If that holds of all that is watched, the
same variables are listed in the same order. -/
theorem watches_steady_but_for_keys (normalize : t.renderer.normalize = true)
    (custom : t.renderer.custom = []) (locally : ctx.frame.locals.Moved ctx'.frame.locals)
    (globally : ctx.globals.Moved ctx'.globals) :
    (∀ source, Watch.NamesNoAddress source →
      ∃ items items',
        (Watch.explode source).items ctx.frame.locals ctx.globals t.renderer = .ok items ∧
        (Watch.explode source).items ctx'.frame.locals ctx'.globals t.renderer = .ok items' ∧
        items.map Watch.freed = items'.map Watch.freed ∧
        (items = items' ↔ Watch.keysAt source ctx = Watch.keysAt source ctx')) ∧
    ((∀ w ∈ t.watches, Watch.NamesNoAddress w.source) →
      (∀ source, .explode source ∈ t.watches →
        Watch.keysAt source ctx = Watch.keysAt source ctx') →
      ∃ vars, t.localReprs ctx = .ok vars ∧ t.localReprs ctx' = .ok vars) := by
  have hexplode (source : String) (clean : Watch.NamesNoAddress source) :=
    Watch.items_explode_moved normalize custom locally globally clean
  refine ⟨hexplode, fun clean keys => ?_⟩
  have hitems : ∀ w ∈ t.watches, w.items ctx.frame.locals ctx.globals t.renderer =
      w.items ctx'.frame.locals ctx'.globals t.renderer := by
    intro w hw
    cases w with
    | path source =>
      exact Watch.items_path_moved normalize custom locally globally (clean (.path source) hw)
    | explode source =>
      obtain ⟨items, items', h, h', -, hiff⟩ := hexplode source (clean (.explode source) hw)
      rw [h, h', hiff.mpr (keys source hw)]
  obtain ⟨vars, hvars⟩ := localReprs_total (Renderer.isTotal_of_custom (by rw [custom]; nofun)) ctx
  refine ⟨vars, hvars, ?_⟩
  rw [← hvars, localReprs, localReprs, renderAll_moved normalize custom locally]
  split
  · rfl
  · exact (addWatches_congr hitems _).symm

def lineAt (name : String) (v : Value) : Context where
  frame := { (default : Frame) with locals := ⟨[(name, v)]⟩ }
  event := .line
  frames := {}
  globals := {}

def withFunction (a b : Nat) : Value :=
  .object "m" "C" [("f", .callable { name := "f", address := a })] b

theorem placedFrom_withFunction {a b : Nat} (ha : 0x1000 ≤ a) (hb : 0x1000 ≤ b) :
    (withFunction a b).PlacedFrom 0x1000 :=
  .object (by simpa using .callable ha) hb

def watching (watches : List Watch) : Tracer :=
  { renderer := { normalize := true }, watches }

theorem moved_lineAt {name : String} {v v' : Value} (moved : v.Moved v') :
    (lineAt name v).frame.locals.Moved (lineAt name v').frame.locals := by
  refine ⟨?_, by simpa [lineAt] using moved.placed, by simpa [lineAt] using moved.placed'⟩
  simp only [lineAt, Namespace.relocate, List.map_singleton, moved.same.relocate_eq]

theorem watches_steady_but_for_keys_of_attribute :
    Watch.NamesNoAddress "c.f" ∧
    (lineAt "c" (withFunction 0x1000 0x2000)).frame.locals.Moved
      (lineAt "c" (withFunction 0xffff 0x1000)).frame.locals ∧
    ∃ vars,
      (watching [.explode "c.f"]).localReprs (lineAt "c" (withFunction 0x1000 0x2000)) = .ok vars ∧
      (watching [.explode "c.f"]).localReprs (lineAt "c" (withFunction 0xffff 0x1000)) = .ok vars := by
  have hclean : Watch.NamesNoAddress "c.f" := by decide +kernel
  have hmoved : (lineAt "c" (withFunction 0x1000 0x2000)).frame.locals.Moved
      (lineAt "c" (withFunction 0xffff 0x1000)).frame.locals :=
    moved_lineAt ⟨rfl, placedFrom_withFunction (by decide) (by decide),
      placedFrom_withFunction (by decide) (by decide)⟩
  refine ⟨hclean, hmoved, ?_⟩
  refine (watches_steady_but_for_keys (t := watching [.explode "c.f"]) rfl rfl hmoved
    ⟨rfl, nofun, nofun⟩).2 ?_ ?_
  · simpa [watching, Watch.source] using hclean
  · intro source hwatched
    obtain rfl : source = "c.f" := by simpa [watching] using hwatched
    decide +kernel

def byFunction (a b : Nat) : Value :=
  .dict [(.callable { name := "f", address := a }, .int 1),
    (.callable { name := "f", address := b }, .int 2)]

theorem placedFrom_byFunction {a b : Nat} (ha : 0x1000 ≤ a) (hb : 0x1000 ≤ b) :
    (byFunction a b).PlacedFrom 0x1000 :=
  .dict (by simpa using ⟨.callable ha, .callable hb⟩) (by simpa using ⟨.int 1, .int 2⟩)

/-- Where two keys have swapped their places, each of their labels stands by the part that was the
other's, and so does a path that holds the address of one of them. -/
theorem swapped_keys_swap_labels :
    (lineAt "d" (byFunction 0x1000 0x2000)).frame.locals.Moved
      (lineAt "d" (byFunction 0x2000 0x1000)).frame.locals ∧
    (Watch.explode "d").items (lineAt "d" (byFunction 0x1000 0x2000)).frame.locals {}
      (watching []).renderer = .ok [("d", "\x7b<function f>: 1, <function f>: 2\x7d"),
        ("d[<function f at 0x1000>]", "1"), ("d[<function f at 0x2000>]", "2")] ∧
    (Watch.explode "d").items (lineAt "d" (byFunction 0x2000 0x1000)).frame.locals {}
      (watching []).renderer = .ok [("d", "\x7b<function f>: 1, <function f>: 2\x7d"),
        ("d[<function f at 0x2000>]", "1"), ("d[<function f at 0x1000>]", "2")] ∧
    (Watch.explode "d.<function f at 0x1000>").items
      (lineAt "d" (byFunction 0x1000 0x2000)).frame.locals {} (watching []).renderer =
        .ok [("d.<function f at 0x1000>", "1")] ∧
    (Watch.explode "d.<function f at 0x1000>").items
      (lineAt "d" (byFunction 0x2000 0x1000)).frame.locals {} (watching []).renderer =
        .ok [("d.<function f at 0x1000>", "2")] := by
  refine ⟨?_, by decide +kernel⟩
  exact moved_lineAt ⟨rfl, placedFrom_byFunction (by decide) (by decide),
    placedFrom_byFunction (by decide) (by decide)⟩

end Tracer
end SelectiveTrace
