/-! Lists of names bound to things, in the order the names were first bound. -/
namespace SelectiveTrace.Bindings
variable {α : Type}

def get? (name : String) (bs : List (String × α)) : Option α :=
  (bs.find? fun b => b.1 = name).map (·.2)

def set (name : String) (a : α) : List (String × α) → List (String × α)
  | [] => [(name, a)]
  | b :: bs => if b.1 = name then (name, a) :: bs else b :: set name a bs

def remove (name : String) : List (String × α) → List (String × α)
  | [] => []
  | b :: bs => if b.1 = name then bs else b :: remove name bs

theorem get?_set_self (name : String) (a : α) (bs : List (String × α)) :
    get? name (set name a bs) = some a := by
  induction bs with
  | nil => simp [get?, set]
  | cons b bs ih =>
    by_cases h : b.1 = name
    · simp [get?, set, h]
    · simpa [get?, set, h] using ih

theorem get?_set_of_ne {name other : String} (a : α) (bs : List (String × α))
    (h : other ≠ name) : get? other (set name a bs) = get? other bs := by
  have hn : name ≠ other := fun e => h e.symm
  induction bs with
  | nil => simp [get?, set, hn]
  | cons b bs ih =>
    by_cases hb : b.1 = name
    · have : b.1 ≠ other := hb ▸ hn
      simp [get?, set, hb, hn]
    · by_cases ho : b.1 = other
      · simp [get?, set, h, ho]
      · simpa [get?, set, hb, ho] using ih

end SelectiveTrace.Bindings
