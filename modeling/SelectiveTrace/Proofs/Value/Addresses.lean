import SelectiveTrace.Proofs.Value.Distinct

/-! Where functions and objects lie in memory does not show in texts that are freed of addresses. The
texts of two values that differ in addresses alone differ in digits behind marks of addresses, and the
marks are found whatever stands in front of them. -/
namespace SelectiveTrace

namespace Text
variable {c : Char} {p cs cs' ds ds' rest : List Char}

structure IsAddress (ds : List Char) : Prop where
  hex : ∀ c ∈ ds, isHex c = true
  enough : 4 ≤ ds.length

/-- Two texts that differ in the digits of addresses alone, each with a bracket behind it. -/
inductive Readdressed : List Char → List Char → Prop where
  | nil : Readdressed [] []
  | cons (c : Char) {cs cs' : List Char} (rest : Readdressed cs cs') : Readdressed (c :: cs) (c :: cs')
  | address {ds ds' cs cs' : List Char} (h : IsAddress ds) (h' : IsAddress ds')
      (rest : Readdressed cs cs') :
      Readdressed (addressMark ++ (ds ++ '>' :: cs)) (addressMark ++ (ds' ++ '>' :: cs'))

theorem Readdressed.refl (cs : List Char) : Readdressed cs cs := by
  induction cs with
  | nil => exact .nil
  | cons c cs ih => exact .cons c ih

theorem Readdressed.symm (h : Readdressed cs cs') : Readdressed cs' cs := by
  induction h with
  | nil => exact .nil
  | cons c _ ih => exact .cons c ih
  | address h h' _ ih => exact .address h' h ih

theorem Readdressed.append {es es' : List Char} (h : Readdressed cs cs') (t : Readdressed es es') :
    Readdressed (cs ++ es) (cs' ++ es') := by
  induction h with
  | nil => exact t
  | cons c _ ih => exact .cons c ih
  | address h h' _ ih => simpa using Readdressed.address h h' ih

theorem Readdressed.prepend (p : List Char) (h : Readdressed cs cs') :
    Readdressed (p ++ cs) (p ++ cs') :=
  (Readdressed.refl p).append h

/-- Characters that stand in no address may be taken out. -/
theorem Readdressed.filter {keep : Char → Bool} (mark : ∀ c ∈ addressMark, keep c = true)
    (hex : ∀ c, isHex c = true → keep c = true) (bracket : keep '>' = true)
    (h : Readdressed cs cs') : Readdressed (cs.filter keep) (cs'.filter keep) := by
  induction h with
  | nil => exact .nil
  | cons c _ ih =>
    rw [List.filter_cons, List.filter_cons]
    split
    · exact .cons c ih
    · exact ih
  | address h h' _ ih =>
    have hdigits {ds : List Char} (h : IsAddress ds) : ds.filter keep = ds :=
      List.filter_eq_self.mpr fun c hc => hex c (h.hex c hc)
    simp only [List.filter_append, List.filter_cons, List.filter_eq_self.mpr mark, hdigits h,
      hdigits h', bracket, if_true]
    exact .address h h' ih

/-! Addresses are dropped from left to right. -/

theorem dropAddresses_of_some (h : afterAddress? cs = some rest) :
    dropAddresses cs = dropAddresses rest := by
  cases cs with
  | nil => cases h
  | cons c cs =>
    rw [dropAddresses]
    split <;> simp_all

theorem dropAddresses_of_none (h : afterAddress? (c :: cs) = none) :
    dropAddresses (c :: cs) = c :: dropAddresses cs := by
  rw [dropAddresses]
  split <;> simp_all

theorem afterAddress?_address (h : IsAddress ds) :
    afterAddress? (addressMark ++ (ds ++ '>' :: cs)) = some ('>' :: cs) := by
  have hdrop : (addressMark ++ (ds ++ '>' :: cs)).drop 6 = ds ++ '>' :: cs := rfl
  have hmark : addressMark.isPrefixOf (addressMark ++ (ds ++ '>' :: cs)) = true :=
    List.isPrefixOf_iff_prefix.mpr (List.prefix_append _ _)
  have htake : (ds ++ '>' :: cs).takeWhile isHex = ds := by
    rw [List.takeWhile_append_of_pos h.hex]
    simp [isHex]
  have hrest : (ds ++ '>' :: cs).dropWhile isHex = '>' :: cs := by
    rw [List.dropWhile_append_of_pos h.hex]
    simp [isHex]
  simp only [afterAddress?, hmark, if_true, hdrop, htake, hrest, if_pos h.enough]

/-- The digits in front of a mark end before it. -/
theorem digits_append_mark (p cs : List Char) :
    (p ++ (addressMark ++ cs)).takeWhile isHex = p.takeWhile isHex ∧
      (p ++ (addressMark ++ cs)).dropWhile isHex = p.dropWhile isHex ++ (addressMark ++ cs) := by
  have hnone : (addressMark ++ cs).takeWhile isHex = [] := rfl
  have hall : (addressMark ++ cs).dropWhile isHex = addressMark ++ cs := rfl
  constructor
  · rw [List.takeWhile_append, hnone, List.append_nil]
    split
    · rename_i hlen
      exact ((List.takeWhile_prefix isHex).eq_of_length hlen).symm
    · rfl
  · rw [List.dropWhile_append, hall]
    split
    · rename_i hempty
      rw [List.isEmpty_iff.mp hempty, List.nil_append]
    · rfl

/-- No mark of an address begins inside another, and none holds a digit, so an address in front of a
mark ends before the mark. -/
theorem afterAddress?_append_mark (hp : p ≠ []) (cs : List Char) :
    afterAddress? (p ++ (addressMark ++ cs)) =
      (afterAddress? p).map (· ++ (addressMark ++ cs)) := by
  rcases p with _ | ⟨c₁, _ | ⟨c₂, _ | ⟨c₃, _ | ⟨c₄, _ | ⟨c₅, _ | ⟨c₆, p⟩⟩⟩⟩⟩⟩
  · exact absurd rfl hp
  case cons.cons.cons.cons.cons.cons =>
    have hmark (es : List Char) : addressMark.isPrefixOf (c₁ :: c₂ :: c₃ :: c₄ :: c₅ :: c₆ :: es) =
        addressMark.isPrefixOf [c₁, c₂, c₃, c₄, c₅, c₆] := by
      simp only [addressMark, List.isPrefixOf]
    obtain ⟨htake, hdrop⟩ := digits_append_mark p cs
    simp only [afterAddress?, List.cons_append, hmark, List.drop_succ_cons, List.drop_zero, htake,
      hdrop]
    split_ifs <;> rfl
  all_goals simp [afterAddress?, addressMark]

/-- What stands in front of a mark is freed of addresses on its own. -/
theorem dropAddresses_append_mark (p cs : List Char) :
    dropAddresses (p ++ (addressMark ++ cs)) =
      dropAddresses p ++ dropAddresses (addressMark ++ cs) := by
  induction p using dropAddresses.induct with
  | case1 => simp [dropAddresses]
  | case2 c p rest h _ ih =>
    have hsome := afterAddress?_append_mark (List.cons_ne_nil c p) cs
    rw [h] at hsome
    rw [dropAddresses_of_some hsome, ih, dropAddresses_of_some h]
  | case3 c p h ih =>
    have hnone := afterAddress?_append_mark (List.cons_ne_nil c p) cs
    rw [h, List.cons_append] at hnone
    rw [List.cons_append, dropAddresses_of_none hnone, ih, dropAddresses_of_none h, List.cons_append]

theorem dropAddresses_address (h : IsAddress ds) (p cs : List Char) :
    dropAddresses (p ++ (addressMark ++ (ds ++ '>' :: cs))) =
      dropAddresses p ++ dropAddresses ('>' :: cs) := by
  rw [dropAddresses_append_mark, dropAddresses_of_some (afterAddress?_address h)]

/-- The induction takes along what stands in front. -/
theorem Readdressed.dropAddresses_prepend (h : Readdressed cs cs') (p : List Char) :
    dropAddresses (p ++ cs) = dropAddresses (p ++ cs') := by
  induction h generalizing p with
  | nil => rfl
  | cons c _ ih => simpa using ih (p ++ [c])
  | address h h' _ ih =>
    rw [dropAddresses_address h, dropAddresses_address h']
    exact congrArg (dropAddresses p ++ ·) (ih ['>'])

theorem Readdressed.dropAddresses_eq (h : Readdressed cs cs') :
    dropAddresses cs = dropAddresses cs' :=
  h.dropAddresses_prepend []

theorem length_dropAddresses (cs : List Char) : (dropAddresses cs).length ≤ cs.length := by
  induction cs using dropAddresses.induct with
  | case1 => simp [dropAddresses]
  | case2 c cs rest h hlt ih =>
    rw [dropAddresses_of_some h]
    omega
  | case3 c cs h ih =>
    rw [dropAddresses_of_none h, List.length_cons, List.length_cons]
    omega

theorem dropAddresses_of_cons (clean : dropAddresses (c :: cs) = c :: cs) :
    dropAddresses cs = cs := by
  cases h : afterAddress? (c :: cs) with
  | none =>
    rw [dropAddresses_of_none h] at clean
    exact (List.cons.inj clean).2
  | some rest =>
    rw [dropAddresses_of_some h] at clean
    have hlt := length_afterAddress? h
    have hle := length_dropAddresses rest
    rw [clean] at hle
    omega

/-- A text without addresses has none to change. -/
theorem Readdressed.eq_of_clean (h : Readdressed cs cs') (clean : dropAddresses cs = cs) :
    cs = cs' := by
  induction h with
  | nil => rfl
  | cons c _ ih => rw [ih (dropAddresses_of_cons clean)]
  | @address ds _ cs _ h _ _ _ =>
    rw [dropAddresses_of_some (afterAddress?_address h)] at clean
    have hle := length_dropAddresses ('>' :: cs)
    rw [clean] at hle
    simp [addressMark] at hle
    omega

theorem Readdressed.normalize_eq {s s' : String} (h : Readdressed s.toList s'.toList) :
    normalize s = normalize s' := by
  rw [normalize, normalize, h.dropAddresses_eq]

/-- A text without addresses is told apart from any other, wherever things lie. -/
theorem Readdressed.eq_iff {s s' key : String} (h : Readdressed s.toList s'.toList)
    (clean : normalize key = key) : s' = key ↔ s = key := by
  have hkey : dropAddresses key.toList = key.toList := by
    simpa [normalize] using congrArg String.toList clean
  constructor
  · rintro rfl
    exact String.toList_inj.mp (h.symm.eq_of_clean hkey).symm
  · rintro rfl
    exact String.toList_inj.mp (h.eq_of_clean hkey).symm

/-! The digits of a number in base sixteen. -/

theorem isHex_digitChar {d : Nat} (h : d < 16) : isHex d.digitChar = true := by
  interval_cases d <;> rfl

theorem isHex_of_mem_toDigits {n : Nat} (h : c ∈ Nat.toDigits 16 n) : isHex c = true := by
  induction n using Nat.strongRecOn with
  | ind n ih =>
    rw [Nat.toDigits_eq_if (by decide)] at h
    split at h
    · rename_i hlt
      rw [List.mem_singleton.mp h]
      exact isHex_digitChar hlt
    · rcases List.mem_append.mp h with hfront | hlast
      · exact ih (n / 16) (by omega) hfront
      · rw [List.mem_singleton.mp hlast]
        exact isHex_digitChar (Nat.mod_lt n (by decide))

/-- From `0x1000` on an address has the digits it takes to be dropped. -/
theorem isAddress_toDigits {n : Nat} (h : 0x1000 ≤ n) : IsAddress (Nat.toDigits 16 n) where
  hex _ := isHex_of_mem_toDigits
  enough := by
    by_contra hfew
    have hlt := (Nat.length_toDigits_le_iff (b := 16) (n := n) (by decide) (by decide)).mp
      (Nat.le_of_lt_succ (Nat.lt_of_not_le hfew))
    exact absurd h (Nat.not_le.mpr hlt)

end Text

namespace Value
variable {v v' : Value} {a least : Nat}

/-! Values that differ in addresses alone. -/

mutual

def relocate (a : Nat) : Value → Value
  | .list items => .list (relocateItems a items)
  | .tuple items => .tuple (relocateItems a items)
  | .set items => .set (relocateItems a items)
  | .dict entries => .dict (relocateEntries a entries)
  | .callable f => .callable { f with address := a }
  | .object module class_ attributes _ => .object module class_ (relocateAttributes a attributes) a
  | v => v

def relocateItems (a : Nat) : List Value → List Value
  | [] => []
  | v :: items => relocate a v :: relocateItems a items

def relocateEntries (a : Nat) : List (Value × Value) → List (Value × Value)
  | [] => []
  | (k, v) :: entries => (relocate a k, relocate a v) :: relocateEntries a entries

def relocateAttributes (a : Nat) : List (String × Value) → List (String × Value)
  | [] => []
  | (name, v) :: attributes => (name, relocate a v) :: relocateAttributes a attributes

end

theorem relocateItems_eq (a : Nat) (items : List Value) :
    relocateItems a items = items.map (relocate a) := by
  induction items with
  | nil => rfl
  | cons v items ih => rw [relocateItems, ih, List.map_cons]

theorem relocateEntries_eq (a : Nat) (entries : List (Value × Value)) :
    relocateEntries a entries = entries.map fun e => (e.1.relocate a, e.2.relocate a) := by
  induction entries with
  | nil => rfl
  | cons e entries ih => rw [relocateEntries, ih, List.map_cons]

theorem relocateAttributes_eq (a : Nat) (attributes : List (String × Value)) :
    relocateAttributes a attributes = attributes.map fun b => (b.1, b.2.relocate a) := by
  induction attributes with
  | nil => rfl
  | cons b attributes ih => rw [relocateAttributes, ih, List.map_cons]

mutual

theorem relocate_relocate (a b : Nat) : ∀ v : Value, (v.relocate a).relocate b = v.relocate b
  | .list items => by rw [relocate, relocate, relocate, relocateItems_relocateItems]
  | .tuple items => by rw [relocate, relocate, relocate, relocateItems_relocateItems]
  | .set items => by rw [relocate, relocate, relocate, relocateItems_relocateItems]
  | .dict entries => by rw [relocate, relocate, relocate, relocateEntries_relocateEntries]
  | .object _ _ attributes _ => by
    rw [relocate, relocate, relocate, relocateAttributes_relocateAttributes]
  | .none | .bool _ | .int _ | .float _ | .str _ | .callable _ => by simp only [relocate]

theorem relocateItems_relocateItems (a b : Nat) :
    ∀ items : List Value, relocateItems b (relocateItems a items) = relocateItems b items
  | [] => rfl
  | v :: items => by
    simp only [relocateItems, relocate_relocate a b v, relocateItems_relocateItems a b items]

theorem relocateEntries_relocateEntries (a b : Nat) :
    ∀ entries : List (Value × Value),
      relocateEntries b (relocateEntries a entries) = relocateEntries b entries
  | [] => rfl
  | (k, v) :: entries => by
    simp only [relocateEntries, relocate_relocate a b k, relocate_relocate a b v,
      relocateEntries_relocateEntries a b entries]

theorem relocateAttributes_relocateAttributes (a b : Nat) :
    ∀ attributes : List (String × Value),
      relocateAttributes b (relocateAttributes a attributes) = relocateAttributes b attributes
  | [] => rfl
  | (_, v) :: attributes => by
    simp only [relocateAttributes, relocate_relocate a b v,
      relocateAttributes_relocateAttributes a b attributes]

end

def SameButAddresses (v v' : Value) : Prop :=
  v.relocate 0 = v'.relocate 0

theorem SameButAddresses.relocate_eq (h : v.SameButAddresses v') (a : Nat) :
    v.relocate a = v'.relocate a := by
  rw [← relocate_relocate 0 a v, h, relocate_relocate]

theorem sameButAddresses_of_relocate_eq (h : v.relocate a = v'.relocate a) :
    v.SameButAddresses v' := by
  rw [SameButAddresses, ← relocate_relocate a 0 v, h, relocate_relocate]

/-- No address in the value lies below `least`. -/
inductive PlacedFrom (least : Nat) : Value → Prop where
  | none : PlacedFrom least .none
  | bool (b : Bool) : PlacedFrom least (.bool b)
  | int (i : Int) : PlacedFrom least (.int i)
  | float (f : Float) : PlacedFrom least (.float f)
  | str (s : String) : PlacedFrom least (.str s)
  | list {items : List Value} (inner : ∀ v ∈ items, PlacedFrom least v) :
      PlacedFrom least (.list items)
  | tuple {items : List Value} (inner : ∀ v ∈ items, PlacedFrom least v) :
      PlacedFrom least (.tuple items)
  | dict {entries : List (Value × Value)} (keys : ∀ e ∈ entries, PlacedFrom least e.1)
      (values : ∀ e ∈ entries, PlacedFrom least e.2) : PlacedFrom least (.dict entries)
  | set {items : List Value} (inner : ∀ v ∈ items, PlacedFrom least v) :
      PlacedFrom least (.set items)
  | callable {f : Function} (here : least ≤ f.address) : PlacedFrom least (.callable f)
  | object {module class_ : String} {attributes : List (String × Value)} {address : Nat}
      (inner : ∀ b ∈ attributes, PlacedFrom least b.2) (here : least ≤ address) :
      PlacedFrom least (.object module class_ attributes address)

/-! The texts of values that differ in addresses alone. -/

theorem chars_callable (f : Function) :
    (callable f).chars = "<function ".toList ++ (f.name.toList ++
      (Text.addressMark ++ (Nat.toDigits 16 f.address ++ ['>']))) := by
  simp [chars, repr, hexText, Text.addressMark]

theorem chars_object (module class_ : String) (attributes : List (String × Value)) (address : Nat) :
    (object module class_ attributes address).chars =
      '<' :: (module.toList ++ '.' :: (class_.toList ++ (" object".toList ++
        (Text.addressMark ++ (Nat.toDigits 16 address ++ ['>']))))) := by
  simp [chars, repr, hexText, Text.addressMark]

theorem readdressed_series {α : Type} {text : α → List Char} {g : α → α} {as : List α}
    (h : ∀ b ∈ as, Text.Readdressed (text b) (text (g b))) :
    Text.Readdressed (series text as) (series text (as.map g)) := by
  have hmore {as : List α} (h : ∀ b ∈ as, Text.Readdressed (text b) (text (g b))) :
      Text.Readdressed (more text as) (more text (as.map g)) := by
    induction as with
    | nil => exact .nil
    | cons b as ih =>
      have hrest := (h b List.mem_cons_self).append
        (ih fun c hc => h c (List.mem_cons_of_mem b hc))
      exact .cons _ (.cons _ hrest)
  cases as with
  | nil => exact .nil
  | cons b as =>
    exact (h b List.mem_cons_self).append (hmore fun c hc => h c (List.mem_cons_of_mem b hc))

theorem lone_map (g : Value → Value) (items : List Value) : lone (items.map g) = lone items := by
  rcases items with _ | ⟨v, _ | ⟨v', items⟩⟩ <;> rfl

/-- To put every address elsewhere changes the digits behind the marks of addresses in the text. -/
theorem readdressed_relocate (ha : 0x1000 ≤ a) (h : v.PlacedFrom 0x1000) :
    Text.Readdressed v.chars (v.relocate a).chars := by
  have hend {n : Nat} (hn : 0x1000 ≤ n) :
      Text.Readdressed (Text.addressMark ++ (Nat.toDigits 16 n ++ ['>']))
        (Text.addressMark ++ (Nat.toDigits 16 a ++ ['>'])) :=
    .address (Text.isAddress_toDigits hn) (Text.isAddress_toDigits ha) .nil
  induction h with
  | none | bool | int | float | str =>
    rw [relocate]
    · exact .refl _
    all_goals simp
  | list _ ih =>
    rw [relocate, relocateItems_eq, chars_list, chars_list]
    exact .cons _ ((readdressed_series ih).append (.refl _))
  | tuple _ ih =>
    rw [relocate, relocateItems_eq, chars_tuple, chars_tuple, lone_map]
    exact .cons _ (((readdressed_series ih).append (.refl _)).append (.refl _))
  | dict _ _ keys values =>
    rw [relocate, relocateEntries_eq, chars_dict, chars_dict]
    refine .cons _ ((readdressed_series fun e he => ?_).append (.refl _))
    exact (keys e he).append (.cons _ (.cons _ (values e he)))
  | @set items _ ih =>
    rw [relocate, relocateItems_eq]
    cases items with
    | nil => exact .refl _
    | cons w items =>
      rw [List.map_cons, chars_set, chars_set, ← List.map_cons]
      exact .cons _ ((readdressed_series ih).append (.refl _))
  | callable here =>
    rw [relocate, chars_callable, chars_callable]
    exact ((hend here).prepend _).prepend _
  | object _ here _ =>
    rw [relocate, chars_object, chars_object]
    exact .cons _ (.prepend _ (.cons _ (((hend here).prepend _).prepend _)))

end Value

namespace Renderer
variable {r : Renderer} {v v' : Value} {a : Nat}

theorem render_eq (custom : r.custom = []) (v : Value) : r.render v = .ok (r.fit v.repr) := by
  simp only [render, repr, custom, List.find?_nil]
  rfl

theorem normalize_oneLine {s s' : String} (h : Text.Readdressed s.toList s'.toList) :
    Text.normalize (oneLine s) = Text.normalize (oneLine s') := by
  have hkept (c : Char) (hc : Text.isHex c = true) : decide (c ≠ '\r' ∧ c ≠ '\n') = true := by
    refine decide_eq_true ⟨?_, ?_⟩ <;> rintro rfl <;> exact absurd hc (by decide)
  have hflat : Text.Readdressed (s.toList.filter fun c => c ≠ '\r' ∧ c ≠ '\n')
      (s'.toList.filter fun c => c ≠ '\r' ∧ c ≠ '\n') :=
    h.filter (by simp [Text.addressMark]) hkept (by decide)
  exact Text.Readdressed.normalize_eq (by simpa only [oneLine, String.toList_ofList] using hflat)

theorem fit_repr_relocate (normalize : r.normalize = true) (ha : 0x1000 ≤ a)
    (placed : v.PlacedFrom 0x1000) : r.fit v.repr = r.fit (v.relocate a).repr := by
  simp only [fit, normalize, if_true, normalize_oneLine (Value.readdressed_relocate ha placed)]

/-- A renderer that drops addresses, and has no custom formats, shows two values alike that are the same
but for the addresses in them, whatever names and strings stand around the addresses. -/
theorem render_forgets_addresses (normalize : r.normalize = true) (custom : r.custom = [])
    (same : v.SameButAddresses v') (placed : v.PlacedFrom 0x1000) (placed' : v'.PlacedFrom 0x1000) :
    ∃ text, r.render v = .ok text ∧ r.render v' = .ok text := by
  refine ⟨r.fit v.repr, render_eq custom v, ?_⟩
  rw [render_eq custom v', fit_repr_relocate normalize (Nat.le_refl _) placed', ← same.relocate_eq,
    ← fit_repr_relocate normalize (Nat.le_refl _) placed]

example : render { normalize := true } (.object "m" "C at 0xcafe" [] 0x1000) = .ok "<m.C object>" := by
  cbv

def misleading (a b : Nat) : Value :=
  .dict [(.tuple [.callable { name := "f at 0x12 at 0x", address := a }],
    .object "m at 0" "C at 0xcafe" [("g", .callable { name := "g", address := a })] b)]

theorem placedFrom_misleading {a b : Nat} (ha : 0x1000 ≤ a) (hb : 0x1000 ≤ b) :
    (misleading a b).PlacedFrom 0x1000 := by
  refine .dict ?_ ?_
  · simpa using .tuple (by simpa using .callable ha)
  · simpa using .object (by simpa using .callable ha) hb

theorem render_forgets_addresses_of_misleading :
    let r : Renderer := { maxLength := none, normalize := true }
    let v := misleading 0x1000 0xfffff
    let v' := misleading 0x7f1a2b3c 0x1000
    r.normalize = true ∧ r.custom = [] ∧ v.SameButAddresses v' ∧ v.PlacedFrom 0x1000 ∧
      v'.PlacedFrom 0x1000 ∧ v ≠ v' ∧ ∃ text, r.render v = .ok text ∧ r.render v' = .ok text := by
  have hplaced := placedFrom_misleading (a := 0x1000) (b := 0xfffff) (by decide) (by decide)
  have hplaced' := placedFrom_misleading (a := 0x7f1a2b3c) (b := 0x1000) (by decide) (by decide)
  refine ⟨rfl, rfl, rfl, hplaced, hplaced', by simp [misleading], ?_⟩
  exact render_forgets_addresses rfl rfl rfl hplaced hplaced'

end Renderer
end SelectiveTrace
