import SelectiveTrace.Proofs.Format.Json
import SelectiveTrace.Render

/-! Values that are plain data are told apart by their texts. The text of such a value tells where it
ends, whatever closes it, so the texts of the parts of a container can be told apart one by one. -/
namespace SelectiveTrace

namespace Text
variable {q c c' : Char} {cs cs' rest rest' : List Char}

def unescaped? : List Char → Option (Char × List Char)
  | [] => none
  | '\\' :: 'n' :: rest => some ('\n', rest)
  | '\\' :: 'r' :: rest => some ('\r', rest)
  | '\\' :: 't' :: rest => some ('\t', rest)
  | '\\' :: c :: rest => some (c, rest)
  | c :: rest => some (c, rest)

theorem unescaped?_escaped (hq : q = '\'' ∨ q = '"') (c : Char) (rest : List Char) :
    unescaped? (escaped q c ++ rest) = some (c, rest) := by
  unfold escaped
  split_ifs with hslash hline hreturn htab hquote
  case neg => cases rest <;> simp [unescaped?, hslash]
  any_goals subst c; rfl
  subst hquote
  rcases hq with rfl | rfl <;> rfl

theorem escaped_ne_quote (hq : q = '\'' ∨ q = '"') : escaped q c ++ rest ≠ q :: rest' := by
  have hslash : q ≠ '\\' := by rcases hq with rfl | rfl <;> decide
  unfold escaped
  split_ifs <;> simp_all [Ne.symm hslash]

theorem literal_inj (hq : q = '\'' ∨ q = '"')
    (h : cs.flatMap (escaped q) ++ q :: rest = cs'.flatMap (escaped q) ++ q :: rest') :
    cs = cs' ∧ rest = rest' := by
  induction cs generalizing cs' with
  | nil => cases cs' with
    | nil => exact ⟨rfl, (List.cons.inj h).2⟩
    | cons c' cs' =>
      rw [List.flatMap_cons, List.append_assoc] at h
      exact absurd h.symm (escaped_ne_quote hq)
  | cons c cs ih => cases cs' with
    | nil =>
      rw [List.flatMap_cons, List.append_assoc] at h
      exact absurd h (escaped_ne_quote hq)
    | cons c' cs' =>
      rw [List.flatMap_cons, List.flatMap_cons, List.append_assoc, List.append_assoc] at h
      have hread := congrArg unescaped? h
      rw [unescaped?_escaped hq, unescaped?_escaped hq] at hread
      obtain ⟨rfl, htail⟩ := Prod.mk.inj (Option.some.inj hread)
      obtain ⟨rfl, hrest⟩ := ih htail
      exact ⟨rfl, hrest⟩

theorem delimiter_eq (cs : List Char) : delimiter cs = '\'' ∨ delimiter cs = '"' := by
  unfold delimiter
  split <;> simp

/-- A string literal tells its text and where it ends. -/
theorem quoteChars_inj (h : quoteChars cs ++ rest = quoteChars cs' ++ rest') :
    cs = cs' ∧ rest = rest' := by
  unfold quoteChars at h
  simp only [List.cons_append, List.append_assoc, List.nil_append] at h
  obtain ⟨hquote, hbody⟩ := List.cons.inj h
  rw [hquote] at hbody
  exact literal_inj (delimiter_eq cs') hbody

end Text

namespace Value
open Json (Closes)
variable {v v' : Value} {close : Char} {rest rest' : List Char}

/-- Data through and through: it holds no float, no function and no instance of a class. -/
inductive IsPlain : Value → Prop where
  | none : IsPlain .none
  | bool (b : Bool) : IsPlain (.bool b)
  | int (i : Int) : IsPlain (.int i)
  | str (s : String) : IsPlain (.str s)
  | list {items : List Value} (inner : ∀ v ∈ items, IsPlain v) : IsPlain (.list items)
  | tuple {items : List Value} (inner : ∀ v ∈ items, IsPlain v) : IsPlain (.tuple items)
  | dict {entries : List (Value × Value)} (keys : ∀ e ∈ entries, IsPlain e.1)
      (values : ∀ e ∈ entries, IsPlain e.2) : IsPlain (.dict entries)
  | set {items : List Value} (inner : ∀ v ∈ items, IsPlain v) : IsPlain (.set items)

def chars (v : Value) : List Char :=
  v.repr.toList

/-! What a text begins with. -/

inductive Shape where
  | nothing
  | yes
  | no
  | number
  | literal
  | list
  | tuple
  | braces
  | emptySet
deriving DecidableEq

/-- The shape of plain data. A set and a dictionary begin alike, but for the empty set. -/
def shape? : Value → Option Shape
  | .none => some .nothing
  | .bool true => some .yes
  | .bool false => some .no
  | .int _ => some .number
  | .str _ => some .literal
  | .list _ => some .list
  | .tuple _ => some .tuple
  | .dict _ => some .braces
  | .set [] => some .emptySet
  | .set _ => some .braces
  | .float _ | .callable _ | .object .. => Option.none

def Shape.of? (c : Char) : Option Shape :=
  if c = 'N' then some .nothing
  else if c = 'T' then some .yes
  else if c = 'F' then some .no
  else if c = '\'' ∨ c = '"' then some .literal
  else if c = '[' then some .list
  else if c = '(' then some .tuple
  else if c = '\x7b' then some .braces
  else if c = 's' then some .emptySet
  else if c = '-' ∨ c.isDigit then some .number
  else Option.none

theorem reprs_eq (items : List Value) : reprs items = items.map repr := by
  induction items with
  | nil => rfl
  | cons v items ih => rw [reprs, ih, List.map_cons]

theorem entryReprs_eq (entries : List (Value × Value)) :
    entryReprs entries = entries.map fun e => e.1.repr ++ ": " ++ e.2.repr := by
  induction entries with
  | nil => rfl
  | cons e entries ih => rw [entryReprs, ih, List.map_cons]

/-! Things with commas between them. -/

section series
variable {α : Type} {text : α → List Char} {Q : α → Prop} {a : α} {as bs : List α}

def more (text : α → List Char) (as : List α) : List Char :=
  as.flatMap fun a => ',' :: ' ' :: text a

def series (text : α → List Char) : List α → List Char
  | [] => []
  | a :: as => text a ++ more text as

theorem intercalate_eq (text : α → String) (as : List α) :
    (", ".intercalate (as.map text)).toList = series (fun a => (text a).toList) as := by
  cases as with
  | nil => rfl
  | cons a as =>
    induction as generalizing a with
    | nil => simp [series, more]
    | cons b as ih =>
      rw [List.map_cons, List.map_cons, String.intercalate_cons_cons, String.toList_append,
        String.toList_append, ← List.map_cons, ih]
      simp [series, more]

/-- The text of `a` tells it and where it ends, among all that are `Q`. -/
def Tells (Q : α → Prop) (text : α → List Char) (a : α) : Prop :=
  ∀ ⦃b : α⦄ ⦃rest rest' : List Char⦄, Q b → Closes rest → Closes rest' →
    text a ++ rest = text b ++ rest' → a = b ∧ rest = rest'

structure Ends (Q : α → Prop) (text : α → List Char) (close : Char) : Prop where
  closes : ∀ rest, Closes (close :: rest)
  comma : close ≠ ','
  opens : ∀ {a rest rest'}, Q a → text a ++ rest ≠ close :: rest'

theorem closes_comma (rest : List Char) : Closes (',' :: rest) :=
  Json.closes_cons (by decide)

theorem closes_colon (rest : List Char) : Closes (':' :: rest) :=
  Json.closes_cons (by decide)

theorem Ends.closes_more (h : Ends Q text close) (as : List α) (rest : List Char) :
    Closes (more text as ++ close :: rest) := by
  cases as with
  | nil => exact h.closes rest
  | cons a as => exact closes_comma _

theorem Ends.more_inj (h : Ends Q text close) (tells : ∀ a ∈ as, Tells Q text a)
    (others : ∀ b ∈ bs, Q b)
    (same : more text as ++ close :: rest = more text bs ++ close :: rest') :
    as = bs ∧ rest = rest' := by
  induction as generalizing bs with
  | nil => cases bs with
    | nil => exact ⟨rfl, (List.cons.inj same).2⟩
    | cons b bs => exact absurd (List.cons.inj same).1 h.comma
  | cons a as ih => cases bs with
    | nil => exact absurd (List.cons.inj same).1.symm h.comma
    | cons b bs =>
      simp only [more, List.flatMap_cons, List.cons_append, List.append_assoc, List.cons.injEq,
        true_and] at same
      obtain ⟨rfl, htail⟩ := tells a List.mem_cons_self (others b List.mem_cons_self)
        (h.closes_more as rest) (h.closes_more bs rest') same
      obtain ⟨rfl, hrest⟩ := ih (fun c hc => tells c (List.mem_cons_of_mem a hc))
        (fun c hc => others c (List.mem_cons_of_mem a hc)) htail
      exact ⟨rfl, hrest⟩

/-- A series tells the things in it and where it ends. -/
theorem Ends.series_inj (h : Ends Q text close) (mine : ∀ a ∈ as, Q a)
    (tells : ∀ a ∈ as, Tells Q text a) (others : ∀ b ∈ bs, Q b)
    (same : series text as ++ close :: rest = series text bs ++ close :: rest') :
    as = bs ∧ rest = rest' := by
  cases as with
  | nil => cases bs with
    | nil => exact ⟨rfl, (List.cons.inj same).2⟩
    | cons b bs =>
      rw [series, series, List.append_assoc] at same
      exact absurd same.symm (h.opens (others b List.mem_cons_self))
  | cons a as => cases bs with
    | nil =>
      rw [series, series, List.append_assoc] at same
      exact absurd same (h.opens (mine a List.mem_cons_self))
    | cons b bs =>
      rw [series, series, List.append_assoc, List.append_assoc] at same
      obtain ⟨rfl, htail⟩ := tells a List.mem_cons_self (others b List.mem_cons_self)
        (h.closes_more as rest) (h.closes_more bs rest') same
      obtain ⟨rfl, hrest⟩ := h.more_inj (fun c hc => tells c (List.mem_cons_of_mem a hc))
        (fun c hc => others c (List.mem_cons_of_mem a hc)) htail
      exact ⟨rfl, hrest⟩

end series

/-! The texts of plain data. -/

def entryChars (e : Value × Value) : List Char :=
  e.1.chars ++ ':' :: ' ' :: e.2.chars

def lone : List Value → List Char
  | [_] => [',']
  | _ => []

theorem chars_list (items : List Value) :
    (list items).chars = '[' :: (series chars items ++ [']']) := by
  simp only [chars, repr, reprs_eq, String.toList_append, intercalate_eq]
  rfl

theorem chars_tuple (items : List Value) :
    (tuple items).chars = '(' :: (series chars items ++ lone items ++ [')']) := by
  rcases items with _ | ⟨v, _ | ⟨v', items⟩⟩
  · rfl
  · simp [chars, repr, series, more, lone]
  · simp only [chars, repr, reprs_eq, String.toList_append, intercalate_eq]
    simp [lone]
    rfl

theorem chars_set (v : Value) (items : List Value) :
    (set (v :: items)).chars = '\x7b' :: (series chars (v :: items) ++ ['\x7d']) := by
  simp only [chars, repr, reprs_eq, String.toList_append, intercalate_eq]
  rfl

theorem chars_dict (entries : List (Value × Value)) :
    (dict entries).chars = '\x7b' :: (series entryChars entries ++ ['\x7d']) := by
  have htext : ∀ e : Value × Value, (e.1.repr ++ ": " ++ e.2.repr).toList = entryChars e := by
    intro e
    simp [entryChars, chars]
  simp only [chars, repr, entryReprs_eq, String.toList_append, intercalate_eq, htext]
  rfl

/-- A number tells its digits and where they end. -/
theorem digits_inj {n m : Nat} (hr : Closes rest) (hr' : Closes rest')
    (same : Nat.toDigits 10 n ++ rest = Nat.toDigits 10 m ++ rest') : n = m ∧ rest = rest' := by
  have hread := congrArg Json.digits? same
  rw [Json.digits?_toDigits hr, Json.digits?_toDigits hr'] at hread
  obtain ⟨hdigits, hrest⟩ := Prod.mk.inj (Option.some.inj hread)
  have hvalue := congrArg Json.digitsValue hdigits
  rw [Json.digitsValue_toDigits, Json.digitsValue_toDigits] at hvalue
  exact ⟨hvalue, hrest⟩

theorem chars_natural (n : Nat) : (int (Int.ofNat n)).chars = Nat.toDigits 10 n :=
  Nat.toList_repr

theorem chars_negative (n : Nat) : (int (Int.negSucc n)).chars = '-' :: Nat.toDigits 10 (n + 1) := by
  simp [chars, repr, Int.toString_eq_repr, Int.repr, Nat.toList_repr]

theorem digits_open (n : Nat) : ∃ c cs, Nat.toDigits 10 n = c :: cs ∧ c.isDigit := by
  obtain ⟨c, cs, hcs⟩ := List.exists_cons_of_ne_nil (Nat.toDigits_ne_nil (n := n) (b := 10))
  exact ⟨c, cs, hcs, Json.isDigit_of_mem (hcs ▸ List.mem_cons_self)⟩

theorem Shape.of?_digit {c : Char} (h : c.isDigit) : of? c = some .number := by
  have hne : ∀ d : Char, d.isDigit = false → c ≠ d := by
    rintro d hd rfl
    rw [h] at hd
    cases hd
  simp [of?, hne _, h]

/-- The first character of a text tells the shape. -/
theorem opens (h : v.IsPlain) :
    ∃ c cs, v.chars = c :: cs ∧ Shape.of? c = v.shape? ∧ v.shape?.isSome := by
  cases h with
  | none => exact ⟨'N', _, rfl, rfl, rfl⟩
  | bool b => cases b with
    | true => exact ⟨'T', _, rfl, rfl, rfl⟩
    | false => exact ⟨'F', _, rfl, rfl, rfl⟩
  | int i => cases i with
    | ofNat n =>
      obtain ⟨c, cs, hcs, hc⟩ := digits_open n
      exact ⟨c, cs, (chars_natural n).trans hcs, Shape.of?_digit hc, rfl⟩
    | negSucc n => exact ⟨'-', _, chars_negative n, rfl, rfl⟩
  | str s =>
    refine ⟨Text.delimiter s.toList, _, String.toList_ofList, ?_, rfl⟩
    rcases Text.delimiter_eq s.toList with h | h <;> rw [h] <;> rfl
  | list => exact ⟨'[', _, chars_list _, rfl, rfl⟩
  | tuple => exact ⟨'(', _, chars_tuple _, rfl, rfl⟩
  | dict => exact ⟨'\x7b', _, chars_dict _, rfl, rfl⟩
  | @set items => cases items with
    | nil => exact ⟨'s', _, rfl, rfl, rfl⟩
    | cons v items => exact ⟨'\x7b', _, chars_set v items, rfl, rfl⟩

/-- Values with the same text are of the same shape. -/
theorem shape?_eq (h : v.IsPlain) (h' : v'.IsPlain) (same : v.chars ++ rest = v'.chars ++ rest') :
    v.shape? = v'.shape? := by
  obtain ⟨c, cs, hcs, hc, -⟩ := opens h
  obtain ⟨c', cs', hcs', hc', -⟩ := opens h'
  rw [hcs, hcs'] at same
  rw [← hc, ← hc', (List.cons.inj same).1]

/-- No plain data begins with a bracket that ends a series. -/
theorem ends_chars (hclose : Shape.of? close = Option.none) (closes : ∀ rest, Closes (close :: rest))
    (comma : close ≠ ',') : Ends IsPlain chars close := by
  refine ⟨closes, comma, ?_⟩
  intro v rest rest' h same
  obtain ⟨c, cs, hcs, hc, hsome⟩ := opens h
  rw [hcs] at same
  have hfirst : c = close := (List.cons.inj same).1
  rw [hfirst, hclose] at hc
  rw [← hc] at hsome
  cases hsome

theorem ends_list : Ends IsPlain chars ']' :=
  ends_chars rfl (fun _ => Json.closes_cons (by decide)) (by decide)

theorem ends_tuple : Ends IsPlain chars ')' :=
  ends_chars rfl (fun _ => Json.closes_cons (by decide)) (by decide)

theorem ends_set : Ends IsPlain chars '\x7d' :=
  ends_chars rfl (fun _ => Json.closes_cons (by decide)) (by decide)

def IsPlainEntry (e : Value × Value) : Prop :=
  e.1.IsPlain ∧ e.2.IsPlain

theorem ends_dict : Ends IsPlainEntry entryChars '\x7d' := by
  refine ⟨ends_set.closes, ends_set.comma, ?_⟩
  intro e rest rest' h same
  rw [entryChars, List.append_assoc] at same
  exact ends_set.opens h.1 same

theorem tells_entry {e : Value × Value} (key : Tells IsPlain chars e.1)
    (value : Tells IsPlain chars e.2) : Tells IsPlainEntry entryChars e := by
  intro e' rest rest' h' hr hr' same
  simp only [entryChars, List.append_assoc, List.cons_append] at same
  obtain ⟨hkey, hmore⟩ := key h'.1 (closes_colon _) (closes_colon _) same
  obtain ⟨hvalue, hrest⟩ := value h'.2 hr hr' (by simpa using hmore)
  exact ⟨Prod.ext hkey hvalue, hrest⟩

theorem closes_tuple (v : Value) (items : List Value) (rest : List Char) :
    Closes (more chars items ++ (lone (v :: items) ++ ')' :: rest)) := by
  cases items <;> exact closes_comma _

/-- What stands behind the first item of a tuple: a lone item has a comma of its own there. -/
theorem tuple_rest_inj {items items' : List Value} (tells : ∀ w ∈ items, Tells IsPlain chars w)
    (others : ∀ w ∈ items', w.IsPlain)
    (same : more chars items ++ (lone (v :: items) ++ ')' :: rest) =
      more chars items' ++ (lone (v :: items') ++ ')' :: rest')) :
    items = items' ∧ rest = rest' := by
  cases items with
  | nil => cases items' with
    | nil => exact ⟨rfl, by simpa [more, lone] using same⟩
    | cons w' items' => cases same
  | cons w items => cases items' with
    | nil => cases same
    | cons w' items' => exact ends_tuple.more_inj tells others same

/-- Two tuples with the same text. -/
theorem tuple_inj {items items' : List Value} (mine : ∀ w ∈ items, w.IsPlain)
    (tells : ∀ w ∈ items, Tells IsPlain chars w) (others : ∀ w ∈ items', w.IsPlain)
    (same : series chars items ++ (lone items ++ ')' :: rest) =
      series chars items' ++ (lone items' ++ ')' :: rest')) : items = items' ∧ rest = rest' := by
  cases items with
  | nil => cases items' with
    | nil => exact ⟨rfl, (List.cons.inj same).2⟩
    | cons w' items' =>
      rw [series, series, List.append_assoc] at same
      exact absurd same.symm (ends_tuple.opens (others w' List.mem_cons_self))
  | cons w items => cases items' with
    | nil =>
      rw [series, series, List.append_assoc] at same
      exact absurd same (ends_tuple.opens (mine w List.mem_cons_self))
    | cons w' items' =>
      rw [series, series, List.append_assoc, List.append_assoc] at same
      obtain ⟨rfl, htail⟩ := tells w List.mem_cons_self (others w' List.mem_cons_self)
        (closes_tuple w items rest) (closes_tuple w' items' rest') same
      obtain ⟨rfl, hrest⟩ := tuple_rest_inj (fun v hv => tells v (List.mem_cons_of_mem w hv))
        (fun v hv => others v (List.mem_cons_of_mem w hv)) htail
      exact ⟨rfl, hrest⟩

/-- No set with items has the text of a dictionary: its first item would have a colon behind it. -/
theorem set_ne_dict {items : List Value} {entries : List (Value × Value)} (plain : v.IsPlain)
    (keys : ∀ e ∈ entries, e.1.IsPlain)
    (told : Tells IsPlain chars v ∨ ∀ e ∈ entries, Tells IsPlain chars e.1) :
    series chars (v :: items) ++ '\x7d' :: rest ≠ series entryChars entries ++ '\x7d' :: rest' := by
  intro same
  cases entries with
  | nil =>
    rw [series, series, List.append_assoc] at same
    exact ends_set.opens plain same
  | cons e entries =>
    simp only [series, entryChars, List.append_assoc, List.cons_append] at same
    have hmore := told.elim
      (fun h =>
        (h (keys e List.mem_cons_self) (ends_set.closes_more items rest) (closes_colon _) same).2)
      (fun h => (h e List.mem_cons_self plain (closes_colon _) (ends_set.closes_more items rest)
        same.symm).2.symm)
    cases items <;> cases hmore

inductive Alike : Value → Value → Prop where
  | none : Alike .none .none
  | bool (b : Bool) : Alike (.bool b) (.bool b)
  | int (i j : Int) : Alike (.int i) (.int j)
  | str (s s' : String) : Alike (.str s) (.str s')
  | list {items items' : List Value} (others : ∀ w ∈ items', w.IsPlain) :
      Alike (.list items) (.list items')
  | tuple {items items' : List Value} (others : ∀ w ∈ items', w.IsPlain) :
      Alike (.tuple items) (.tuple items')
  | dict {entries entries' : List (Value × Value)} (keys : ∀ e ∈ entries', e.1.IsPlain)
      (values : ∀ e ∈ entries', e.2.IsPlain) : Alike (.dict entries) (.dict entries')
  | emptySet : Alike (.set []) (.set [])
  | set {w w' : Value} {items items' : List Value} (others : ∀ w ∈ w' :: items', w.IsPlain) :
      Alike (.set (w :: items)) (.set (w' :: items'))
  | setDict {w : Value} {items : List Value} {entries : List (Value × Value)}
      (keys : ∀ e ∈ entries, e.1.IsPlain) : Alike (.set (w :: items)) (.dict entries)
  | dictSet {entries : List (Value × Value)} {w' : Value} {items' : List Value}
      (others : ∀ w ∈ w' :: items', w.IsPlain) : Alike (.dict entries) (.set (w' :: items'))

theorem alike (h : v.IsPlain) (h' : v'.IsPlain) (same : v.chars ++ rest = v'.chars ++ rest') :
    Alike v v' := by
  have hshape := shape?_eq h h' same
  rcases h with _ | (_ | _) | _ | _ | _ | _ | _ | @⟨_ | _, _⟩ <;>
    rcases h' with _ | (_ | _) | _ | _ | _ | _ | _ | @⟨_ | _, _⟩ <;>
    first
    | constructor <;> assumption
    | cases hshape

theorem int_inj {i j : Int} (hr : Closes rest) (hr' : Closes rest')
    (same : (int i).chars ++ rest = (int j).chars ++ rest') : i = j ∧ rest = rest' := by
  have unsigned {n : Nat} {cs cs' : List Char} : Nat.toDigits 10 n ++ cs ≠ '-' :: cs' := by
    obtain ⟨c, ds, hds, hc⟩ := digits_open n
    rw [hds]
    rintro ⟨⟩
    cases hc
  cases i with
  | ofNat n => cases j with
    | ofNat m =>
      rw [chars_natural, chars_natural] at same
      obtain ⟨hn, hrest⟩ := digits_inj hr hr' same
      exact ⟨congrArg Int.ofNat hn, hrest⟩
    | negSucc m =>
      rw [chars_natural, chars_negative] at same
      exact absurd same unsigned
  | negSucc n => cases j with
    | ofNat m =>
      rw [chars_natural, chars_negative] at same
      exact absurd same.symm unsigned
    | negSucc m =>
      rw [chars_negative, chars_negative] at same
      obtain ⟨hn, hrest⟩ := digits_inj hr hr' (List.cons.inj same).2
      exact ⟨congrArg Int.negSucc (Nat.succ.inj hn), hrest⟩

/-- The text of plain data tells it and where it ends. -/
theorem tells (h : v.IsPlain) : Tells IsPlain chars v := by
  induction h with
  | none =>
    intro v' rest rest' h' _ _ same
    cases alike .none h' same
    exact ⟨rfl, List.append_cancel_left same⟩
  | bool b =>
    intro v' rest rest' h' _ _ same
    cases alike (.bool b) h' same
    exact ⟨rfl, List.append_cancel_left same⟩
  | int i =>
    intro v' rest rest' h' hr hr' same
    cases alike (.int i) h' same with
    | int _ j =>
      obtain ⟨rfl, hrest⟩ := int_inj hr hr' same
      exact ⟨rfl, hrest⟩
  | str s =>
    intro v' rest rest' h' _ _ same
    cases alike (.str s) h' same with
    | str _ s' =>
      simp only [chars, repr, Text.quote, String.toList_ofList] at same
      obtain ⟨hs, hrest⟩ := Text.quoteChars_inj same
      exact ⟨congrArg str (String.toList_inj.mp hs), hrest⟩
  | list inner ih =>
    intro v' rest rest' h' _ _ same
    cases alike (.list inner) h' same with
    | list others =>
      simp only [chars_list, List.cons_append, List.append_assoc, List.nil_append,
        List.cons.injEq, true_and] at same
      obtain ⟨rfl, hrest⟩ := ends_list.series_inj inner ih others same
      exact ⟨rfl, hrest⟩
  | tuple inner ih =>
    intro v' rest rest' h' _ _ same
    cases alike (.tuple inner) h' same with
    | tuple others =>
      simp only [chars_tuple, List.cons_append, List.append_assoc, List.nil_append,
        List.cons.injEq, true_and] at same
      obtain ⟨rfl, hrest⟩ := tuple_inj inner ih others same
      exact ⟨rfl, hrest⟩
  | dict keys values ihk ihv =>
    intro v' rest rest' h' _ _ same
    cases alike (.dict keys values) h' same with
    | dict keys' values' =>
      simp only [chars_dict, List.cons_append, List.append_assoc, List.nil_append,
        List.cons.injEq, true_and] at same
      obtain ⟨rfl, hrest⟩ := ends_dict.series_inj (fun e he => ⟨keys e he, values e he⟩)
        (fun e he => tells_entry (ihk e he) (ihv e he)) (fun e he => ⟨keys' e he, values' e he⟩) same
      exact ⟨rfl, hrest⟩
    | dictSet others =>
      simp only [chars_dict, chars_set, List.cons_append, List.append_assoc, List.nil_append,
        List.cons.injEq, true_and] at same
      exact absurd same.symm (set_ne_dict (others _ List.mem_cons_self) keys (.inr ihk))
  | set inner ih =>
    intro v' rest rest' h' _ _ same
    cases alike (.set inner) h' same with
    | emptySet => exact ⟨rfl, List.append_cancel_left same⟩
    | set others =>
      simp only [chars_set, List.cons_append, List.append_assoc, List.nil_append,
        List.cons.injEq, true_and] at same
      obtain ⟨hitems, hrest⟩ := ends_set.series_inj inner ih others same
      exact ⟨congrArg set hitems, hrest⟩
    | setDict keys' =>
      simp only [chars_dict, chars_set, List.cons_append, List.append_assoc, List.nil_append,
        List.cons.injEq, true_and] at same
      exact absurd same
        (set_ne_dict (inner _ List.mem_cons_self) keys' (.inl (ih _ List.mem_cons_self)))

/-- Plain data with the same text is the same. -/
theorem repr_inj (h : v.IsPlain) (h' : v'.IsPlain) (same : v.repr = v'.repr) : v = v' :=
  (tells h h' Json.closes_nil Json.closes_nil (congrArg (·.toList ++ []) same)).1

/-! No text of plain data has a line break in it. -/

def Unbroken (cs : List Char) : Prop :=
  ∀ c ∈ cs, c ≠ '\r' ∧ c ≠ '\n'

/-- The characters of a text at hand are looked at one by one. -/
theorem unbroken_of_all {cs : List Char}
    (h : (cs.all fun c => decide (c ≠ '\r' ∧ c ≠ '\n')) = true) : Unbroken cs :=
  fun c hc => of_decide_eq_true (List.all_eq_true.mp h c hc)

theorem Unbroken.append {cs cs' : List Char} (h : Unbroken cs) (h' : Unbroken cs') :
    Unbroken (cs ++ cs') := by
  intro c hc
  rcases List.mem_append.mp hc with hc | hc
  · exact h c hc
  · exact h' c hc

theorem Unbroken.cons {c : Char} {cs : List Char} (hc : c ≠ '\r' ∧ c ≠ '\n') (h : Unbroken cs) :
    Unbroken (c :: cs) := by
  intro d hd
  rcases List.mem_cons.mp hd with rfl | hd
  · exact hc
  · exact h d hd

theorem unbroken_of_digits {cs : List Char} (h : ∀ c ∈ cs, c.isDigit) : Unbroken cs := by
  intro c hc
  have hdigit := h c hc
  refine ⟨?_, ?_⟩ <;> rintro rfl <;> cases hdigit

theorem unbroken_escaped {q : Char} (hq : q = '\'' ∨ q = '"') (c : Char) :
    Unbroken (Text.escaped q c) := by
  unfold Text.escaped
  split_ifs with hslash hline hreturn htab hquote
  case neg => simp [Unbroken, hline, hreturn]
  any_goals exact unbroken_of_all rfl
  rcases hq with rfl | rfl <;> subst hquote <;> exact unbroken_of_all rfl

theorem unbroken_quote (cs : List Char) : Unbroken (Text.quoteChars cs) := by
  have hq := Text.delimiter_eq cs
  have hdelimiter : Text.delimiter cs ≠ '\r' ∧ Text.delimiter cs ≠ '\n' := by
    rcases hq with h | h <;> rw [h] <;> decide
  refine (Unbroken.cons hdelimiter ?_).append (.cons hdelimiter (by simp [Unbroken]))
  intro c hc
  obtain ⟨d, -, hd⟩ := List.mem_flatMap.mp hc
  exact unbroken_escaped hq d c hd

theorem unbroken_series {α : Type} {text : α → List Char} {as : List α}
    (h : ∀ a ∈ as, Unbroken (text a)) : Unbroken (series text as) := by
  cases as with
  | nil => simp [series, Unbroken]
  | cons a as =>
    refine (h a List.mem_cons_self).append ?_
    intro c hc
    obtain ⟨b, hb, hc⟩ := List.mem_flatMap.mp hc
    exact (Unbroken.cons (by decide) (.cons (by decide) (h b (List.mem_cons_of_mem a hb)))) c hc

theorem unbroken_chars (h : v.IsPlain) : Unbroken v.chars := by
  induction h with
  | none => exact unbroken_of_all rfl
  | bool b => cases b <;> exact unbroken_of_all rfl
  | int i => cases i with
    | ofNat n =>
      rw [chars_natural]
      exact unbroken_of_digits fun _ => Json.isDigit_of_mem
    | negSucc n =>
      rw [chars_negative]
      exact .cons (by decide) (unbroken_of_digits fun _ => Json.isDigit_of_mem)
  | str s =>
    simp only [chars, repr, Text.quote, String.toList_ofList]
    exact unbroken_quote s.toList
  | list inner ih =>
    rw [chars_list]
    exact .cons (by decide) ((unbroken_series ih).append (unbroken_of_all rfl))
  | @tuple items inner ih =>
    have hlone : Unbroken (lone items) := by
      unfold lone
      split <;> exact unbroken_of_all rfl
    rw [chars_tuple]
    exact .cons (by decide) (((unbroken_series ih).append hlone).append (unbroken_of_all rfl))
  | dict keys values ihk ihv =>
    rw [chars_dict]
    refine .cons (by decide) ((unbroken_series fun e he => ?_).append (unbroken_of_all rfl))
    exact (ihk e he).append (.cons (by decide) (.cons (by decide) (ihv e he)))
  | @set items inner ih => cases items with
    | nil => exact unbroken_of_all rfl
    | cons v items =>
      rw [chars_set]
      exact .cons (by decide) ((unbroken_series ih).append (unbroken_of_all rfl))

theorem oneLine_repr (h : v.IsPlain) : Renderer.oneLine v.repr = v.repr := by
  unfold Renderer.oneLine
  have hkept : ∀ c ∈ v.repr.toList, decide (c ≠ '\r' ∧ c ≠ '\n') = true := fun c hc =>
    decide_eq_true (unbroken_chars h c hc)
  rw [List.filter_eq_self.mpr hkept]
  exact String.ofList_toList

end Value
end SelectiveTrace
