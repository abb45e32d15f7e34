import Mathlib.Data.List.Forall2
import Mathlib.Tactic.IntervalCases
import SelectiveTrace.Format.Json

/-! What is written as JSON reads back: digits, strings, and documents in both layouts. -/
namespace SelectiveTrace

/-- A document that its text tells in full: the numbers in it are whole and of sixty-four bits. -/
inductive Document.IsExact : Document → Prop where
  | null : IsExact .null
  | bool (b : Bool) : IsExact (.bool b)
  | int {i : Int} (low : -2 ^ 63 ≤ i) (high : i < 2 ^ 64) : IsExact (.int i)
  | str (s : String) : IsExact (.str s)
  | list {items : List Document} (inner : ∀ d ∈ items, IsExact d) : IsExact (.list items)
  | table {entries : List (String × Document)} (inner : ∀ e ∈ entries, IsExact e.2) :
      IsExact (.table entries)

namespace Json
variable {c : Char} {cs rest gap after part : List Char} {n m : Nat} {d : Document}

/-! Digits. -/

def Closes (rest : List Char) : Prop :=
  ∀ c ∈ rest.head?, c.isDigit = false ∧ c ≠ '.' ∧ c ≠ 'e' ∧ c ≠ 'E'

theorem closes_nil : Closes [] := nofun

theorem digits?_append (hne : cs ≠ []) (hcs : ∀ c ∈ cs, c.isDigit) (h : Closes rest) :
    digits? (cs ++ rest) = some (cs, rest) := by
  have hrest : rest.takeWhile Char.isDigit = [] ∧ rest.dropWhile Char.isDigit = rest := by
    cases rest with
    | nil => exact ⟨rfl, rfl⟩
    | cons c rest => simp [(h c rfl).1]
  simp [digits?, List.takeWhile_append_of_pos hcs, List.dropWhile_append_of_pos hcs, hrest, hne]

theorem scale?_of_closes (h : Closes rest) : scale? rest = some (false, rest) := by
  cases rest with
  | nil => rfl
  | cons c rest =>
    obtain ⟨-, hpoint, he, hE⟩ := h c rfl
    unfold scale?
    split
    case h_1 heq => cases heq; exact (hpoint rfl).elim
    case h_2 => simp [he, hE]

theorem digitsValue_toDigits : digitsValue (Nat.toDigits 10 n) = n :=
  Nat.ofDigitChars_ten_toDigits

theorem isDigit_of_mem (h : c ∈ Nat.toDigits 10 n) : c.isDigit :=
  Nat.isDigit_of_mem_toDigits (by decide) (by decide) h

/-- Only the number zero is written with a zero in front. -/
theorem head_toDigits_ne (hn : n ≠ 0) : (Nat.toDigits 10 n).head? ≠ some '0' := by
  induction n using Nat.strongRecOn with
  | ind n ih =>
    by_cases h : n < 10
    · rw [Nat.toDigits_of_lt_base h]
      interval_cases n <;> first | contradiction | decide
    · rw [Nat.toDigits_of_base_le (by decide) (by omega),
        List.head?_append_of_ne_nil _ Nat.toDigits_ne_nil]
      exact ih (n / 10) (by omega) (by omega)

theorem not_led_by_zero :
    ¬((Nat.toDigits 10 n).head? = some '0' ∧ 1 < (Nat.toDigits 10 n).length) := by
  rintro ⟨hhead, hlen⟩
  by_cases hn : n = 0
  · subst hn
    exact absurd hlen (by decide)
  · exact head_toDigits_ne hn hhead

theorem digits?_toDigits (h : Closes rest) :
    digits? (Nat.toDigits 10 n ++ rest) = some (Nat.toDigits 10 n, rest) :=
  digits?_append Nat.toDigits_ne_nil (fun _ => isDigit_of_mem) h

theorem number?_natural (h : Closes rest) :
    number? (Nat.toDigits 10 n ++ rest) =
      some (if Nat.pow 2 64 ≤ n then .real else .int n, rest) := by
  obtain ⟨c, cs, hcs⟩ := List.exists_cons_of_ne_nil (Nat.toDigits_ne_nil (n := n) (b := 10))
  have hc : c ≠ '-' := by
    rintro rfl
    exact absurd (isDigit_of_mem (hcs ▸ List.mem_cons_self)) (by decide)
  have hdigits := digits?_toDigits (n := n) h
  rw [hcs, List.cons_append] at hdigits ⊢
  simp [number?, hc, hdigits, ← hcs, not_led_by_zero, digitsValue_toDigits, scale?_of_closes h]

theorem number?_negative (h : Closes rest) :
    number? ('-' :: (Nat.toDigits 10 n ++ rest)) =
      some (if n = 0 ∨ Nat.pow 2 63 < n then .real else .int (-n), rest) := by
  simp [number?, digits?_toDigits h, not_led_by_zero, digitsValue_toDigits, scale?_of_closes h]

/-! Strings. -/

theorem hexValue?_hexDigit (h : n < 16) : hexValue? (hexDigit n) = some n := by
  interval_cases n <;> rfl

theorem coded?_control (h : c.toNat < 0x20) :
    coded? ('0' :: '0' :: hexDigit (c.toNat / 16) :: hexDigit (c.toNat % 16) :: rest) =
      some (c, rest) := by
  have hzero : hexValue? '0' = some 0 := rfl
  have hhigh := hexValue?_hexDigit (n := c.toNat / 16) (by omega)
  have hlow := hexValue?_hexDigit (n := c.toNat % 16) (by omega)
  have hcode : c.toNat / 16 * 16 + c.toNat % 16 = c.toNat := by omega
  have hlead : ¬(0xD800 ≤ c.toNat) := by omega
  have htrail : ¬(0xDC00 ≤ c.toNat) := by omega
  simp [coded?, unit?, hzero, hhigh, hlow, hcode, hlead, htrail]

theorem char?_escape (c : Char) (rest : List Char) :
    char? (escape c ++ rest) = some (c, rest) := by
  unfold escape
  split_ifs with hquote hslash hbell hfeed hline hreturn htab hcontrol
  case neg => cases rest <;> simp [char?, hslash, hcontrol]
  any_goals subst c; rfl
  simp [char?, coded?_control hcontrol]

theorem escape_opens (c : Char) : ∃ e es, escape c = e :: es ∧ e ≠ '"' := by
  unfold escape
  split_ifs with hquote
  case neg => exact ⟨c, [], rfl, hquote⟩
  all_goals exact ⟨_, _, rfl, by decide⟩

theorem length_le_escaped (cs : List Char) : cs.length ≤ (cs.flatMap escape).length := by
  induction cs with
  | nil => exact le_rfl
  | cons c cs ih =>
    obtain ⟨e, es, hescape, -⟩ := escape_opens c
    simp only [List.flatMap_cons, List.length_append, List.length_cons, hescape]
    omega

theorem string?_escaped (h : cs.length < n) :
    string? n (cs.flatMap escape ++ '"' :: rest) = some (cs, rest) := by
  induction cs generalizing n with
  | nil => cases n with
    | zero => exact absurd h (by decide)
    | succ n => simp [string?]
  | cons c cs ih => cases n with
    | zero => exact absurd h (Nat.not_lt_zero _)
    | succ n =>
      obtain ⟨e, es, hescape, he⟩ := escape_opens c
      have hchar := char?_escape c (cs.flatMap escape ++ '"' :: rest)
      rw [hescape, List.cons_append] at hchar
      have htail := ih (n := n) (Nat.lt_of_succ_lt_succ h)
      simp [string?, hescape, he, hchar, htail]

/-- The rest of a written string, read with the fuel its reader has. -/
theorem string?_quoted (s : String) (rest : List Char) :
    string? ((s.toList.flatMap escape ++ '"' :: rest).length + 1)
      (s.toList.flatMap escape ++ '"' :: rest) = some (s.toList, rest) := by
  apply string?_escaped
  have := length_le_escaped s.toList
  simp only [List.length_append]
  omega

/-! White space, which may stand in front of every part. -/

def IsGap (gap : List Char) : Prop :=
  ∀ c ∈ gap, isSpace c

theorem isGap_nil : IsGap [] := nofun

theorem isGap_newline (level : Nat) : IsGap (newline level) := by
  intro c hc
  rcases List.mem_cons.mp hc with rfl | hc
  · rfl
  · exact (List.mem_replicate.mp hc).2 ▸ rfl

theorem skip_gap (h : IsGap gap) : skip (gap ++ cs) = skip cs :=
  List.dropWhile_append_of_pos h

theorem skip_of_not_space (h : isSpace c = false) : skip (c :: cs) = c :: cs := by
  simp [skip, h]

theorem value?_gap (h : IsGap gap) : value? n (gap ++ cs) = value? n cs := by
  cases n with
  | zero => simp only [value?]
  | succ n => simp only [value?, skip_gap h]

theorem items?_gap (h : IsGap gap) : items? n (gap ++ cs) = items? n cs := by
  cases n with
  | zero => simp only [items?]
  | succ n => simp only [items?, value?_gap h]

theorem members?_gap (h : IsGap gap) : members? n (gap ++ cs) = members? n cs := by
  cases n with
  | zero => simp only [members?]
  | succ n => simp only [members?, skip_gap h]

theorem isSpace_iff : isSpace c ↔ c = ' ' ∨ c = '\n' ∨ c = '\t' ∨ c = '\r' := by
  simp [isSpace, or_assoc]

theorem closes_cons (h : c.isDigit = false ∧ c ≠ '.' ∧ c ≠ 'e' ∧ c ≠ 'E') : Closes (c :: rest) := by
  rintro _ ⟨⟩
  exact h

theorem closes_gap (h : IsGap gap) (hrest : Closes rest) : Closes (gap ++ rest) := by
  cases gap with
  | nil => exact hrest
  | cons c gap =>
    apply closes_cons
    rcases isSpace_iff.mp (h c List.mem_cons_self) with rfl | rfl | rfl | rfl <;> decide

/-! Parts of a document. -/

/-- `part` is read as `d`, whatever closes it; it begins with no white space and closes no list. -/
structure Reads (part : List Char) (d : Document) : Prop where
  opens : ∃ c cs, part = c :: cs ∧ isSpace c = false ∧ c ≠ ']'
  value : ∀ {n rest}, part.length ≤ n → Closes rest → value? n (part ++ rest) = some (d, rest)

/-- It is enough to look at a reader with fuel left. -/
theorem Reads.of_succ (hc : isSpace c = false) (hb : c ≠ ']')
    (value : ∀ {n rest}, cs.length ≤ n → Closes rest →
      value? (n + 1) (c :: (cs ++ rest)) = some (d, rest)) : Reads (c :: cs) d := by
  refine ⟨⟨c, cs, rfl, hc, hb⟩, fun {n rest} hn hrest => ?_⟩
  cases n with
  | zero => exact absurd hn (by simp)
  | succ n => exact value (Nat.le_of_succ_le_succ hn) hrest

theorem isSpace_of_begins (h : c.isDigit ∨ c = '-') : isSpace c = false := by
  refine Bool.eq_false_iff.mpr fun hc => ?_
  rcases isSpace_iff.mp hc with rfl | rfl | rfl | rfl <;> exact absurd h (by decide)

theorem value?_number (h : c.isDigit ∨ c = '-') : value? (n + 1) (c :: cs) = number? (c :: cs) := by
  rw [value?, skip_of_not_space (isSpace_of_begins h)]
  split
  case h_7 => rfl
  all_goals
    rename_i heq
    cases heq
    exact absurd h (by decide)

theorem reads_number (h : c.isDigit ∨ c = '-')
    (hnumber : ∀ {rest}, Closes rest → number? (c :: (cs ++ rest)) = some (d, rest)) :
    Reads (c :: cs) d := by
  refine .of_succ (isSpace_of_begins h) ?_ fun _ hrest => (value?_number h).trans (hnumber hrest)
  rintro rfl
  exact absurd h (by decide)

theorem reads_natural (h : n < 2 ^ 64) : Reads (Nat.toDigits 10 n) (.int n) := by
  obtain ⟨c, cs, hcs⟩ := List.exists_cons_of_ne_nil (Nat.toDigits_ne_nil (n := n) (b := 10))
  have hnumber {rest} (hrest : Closes rest) := number?_natural (n := n) hrest
  rw [hcs] at hnumber ⊢
  refine reads_number (.inl (isDigit_of_mem (hcs ▸ List.mem_cons_self))) fun hrest => ?_
  rw [← List.cons_append, hnumber hrest, if_neg (by simpa using h)]

theorem reads_negative (h : n ≤ 2 ^ 63) (hn : n ≠ 0) :
    Reads ('-' :: Nat.toDigits 10 n) (.int (-n)) := by
  refine reads_number (.inr rfl) fun hrest => ?_
  rw [number?_negative hrest, if_neg (by simpa [hn] using h)]

theorem reads_int {i : Int} (low : -2 ^ 63 ≤ i) (high : i < 2 ^ 64) :
    Reads (toString i).toList (.int i) := by
  cases i with
  | ofNat n =>
    have htext : (toString (Int.ofNat n)).toList = Nat.toDigits 10 n := Nat.toList_repr
    have hn : n < 2 ^ 64 := Int.ofNat_lt.mp high
    exact htext ▸ reads_natural hn
  | negSucc n =>
    have htext : (toString (Int.negSucc n)).toList = '-' :: Nat.toDigits 10 (n + 1) := by
      simp [Int.toString_eq_repr, Int.repr, Nat.toList_repr]
    exact htext ▸ reads_negative (by omega) (Nat.succ_ne_zero n)

theorem value?_string : value? (n + 1) ('"' :: cs) =
    (string? (cs.length + 1) cs).map fun (s, rest) => (.str (.ofList s), rest) := rfl

theorem reads_quoted (s : String) : Reads (quoted s) (.str s) := by
  refine .of_succ rfl (by decide) fun {n rest} _ _ => ?_
  have hassoc : (s.toList.flatMap escape).append ['"'] ++ rest =
      s.toList.flatMap escape ++ '"' :: rest := by simp
  rw [hassoc, value?_string, string?_quoted]
  simp

/-! Parts with commas between them: the items of a list and the entries of a table. -/

/-- What stands between `opening` and `close` as the parts of a document: `read` takes the values of
the parts, and `wrap` is the document they make up. -/
structure IsSequence {α : Type} (opening close : Char)
    (read : Nat → List Char → Option (List α × List Char)) (wrap : List α → Document)
    (R : List Char → α → Prop) : Prop where
  gap : ∀ {n gap cs}, IsGap gap → read n (gap ++ cs) = read n cs
  last : ∀ {n part a after rest}, R part a → part.length ≤ n → IsGap after →
    read (n + 1) (part ++ (after ++ close :: rest)) = some ([a], rest)
  more : ∀ {n part a rest}, R part a → part.length ≤ n →
    read (n + 1) (part ++ ',' :: rest) = (read n rest).map fun (as, rest) => (a :: as, rest)
  opens : ∀ {part a}, R part a → ∃ c cs, part = c :: cs ∧ isSpace c = false ∧ c ≠ close
  empty : Reads [opening, close] (wrap [])
  opened : ∀ {n c cs cs'}, skip cs = c :: cs' → c ≠ close →
    value? (n + 1) (opening :: cs) = (read n (c :: cs')).map fun (as, rest) => (wrap as, rest)

namespace IsSequence
variable {α : Type} {opening close : Char} {read : Nat → List Char → Option (List α × List Char)}
  {wrap : List α → Document} {R : List Char → α → Prop} {parts : List (List Char)} {as : List α}

theorem read_joined (hread : IsSequence opening close read wrap R) (hgap : IsGap gap)
    (hafter : IsGap after) (h : List.Forall₂ R parts as) (hne : parts ≠ [])
    (hn : (joined (',' :: gap) parts).length < n) :
    read n (joined (',' :: gap) parts ++ (after ++ close :: rest)) = some (as, rest) := by
  induction h generalizing n with
  | nil => exact absurd rfl hne
  | @cons part a parts as hpart hparts ih =>
    cases n with
    | zero => exact absurd hn (Nat.not_lt_zero _)
    | succ n =>
      cases hparts with
      | nil => exact hread.last hpart (Nat.le_of_lt_succ hn) hafter
      | @cons next b parts as hnext hparts =>
        simp only [joined, List.length_append, List.length_cons] at hn ih
        have htail := ih (n := n) (List.cons_ne_nil _ _) (by omega)
        simp only [joined, List.append_assoc, List.cons_append] at htail ⊢
        rw [hread.more hpart (by omega), hread.gap hgap, htail]
        rfl

theorem joined_opens (hread : IsSequence opening close read wrap R) (h : List.Forall₂ R parts as)
    (hne : parts ≠ []) (between : List Char) :
    ∃ c cs, joined between parts = c :: cs ∧ isSpace c = false ∧ c ≠ close := by
  cases h with
  | nil => exact absurd rfl hne
  | @cons part a parts as hpart hparts =>
    obtain ⟨c, cs, rfl, hc⟩ := hread.opens hpart
    cases parts with
    | nil => exact ⟨c, cs, rfl, hc⟩
    | cons next parts =>
      refine ⟨c, cs ++ (between ++ joined between (next :: parts)), ?_, hc⟩
      simp only [joined, List.cons_append, List.append_assoc]

theorem reads (hread : IsSequence opening close read wrap R) (hgap : IsGap gap)
    (hafter : IsGap after) (h : List.Forall₂ R parts as) (hne : parts ≠ []) :
    Reads (opening :: (gap ++ joined (',' :: gap) parts ++ after ++ [close])) (wrap as) := by
  obtain ⟨_, _, heq, hspace, hbracket⟩ := hread.empty.opens
  cases heq
  refine .of_succ hspace hbracket fun {n rest} hn _ => ?_
  simp only [List.length_append, List.length_cons] at hn
  have hjoined : read n (joined (',' :: gap) parts ++ (after ++ close :: rest)) = some (as, rest) :=
    hread.read_joined hgap hafter h hne (by omega)
  obtain ⟨c, cs, hparts, hc, hclose⟩ := hread.joined_opens h hne (',' :: gap)
  rw [hparts, List.cons_append] at hjoined
  have hskip : skip (gap ++ joined (',' :: gap) parts ++ after ++ [close] ++ rest) =
      c :: (cs ++ (after ++ close :: rest)) := by
    simp only [List.append_assoc, hparts, List.cons_append, List.nil_append, skip_gap hgap,
      skip_of_not_space hc]
  rw [hread.opened hskip hclose, hjoined]
  rfl

/-- Parts on one line. -/
theorem reads_tight (hread : IsSequence opening close read wrap R) (h : List.Forall₂ R parts as) :
    Reads (opening :: joined [','] parts ++ [close]) (wrap as) := by
  cases h with
  | nil => exact hread.empty
  | cons hpart hparts =>
    simpa using hread.reads isGap_nil isGap_nil (.cons hpart hparts) (List.cons_ne_nil _ _)

/-- Parts on lines of their own. -/
theorem reads_block (hread : IsSequence opening close read wrap R) (h : List.Forall₂ R parts as)
    (level : Nat) : Reads (block opening close level parts) (wrap as) := by
  cases h with
  | nil => exact hread.empty
  | cons hpart hparts =>
    simpa [block] using hread.reads (isGap_newline (level + 1)) (isGap_newline level)
      (.cons hpart hparts) (List.cons_ne_nil _ _)

end IsSequence

theorem value?_bracket : value? (n + 1) ('[' :: cs) = match skip cs with
    | ']' :: rest => some (.list [], rest)
    | cs => (items? n cs).map fun (ds, rest) => (.list ds, rest) := rfl

theorem isSequence_items : IsSequence '[' ']' items? .list Reads where
  gap := items?_gap
  last {n part d after rest} hpart hn hafter := by
    have hcloses : Closes (after ++ ']' :: rest) := closes_gap hafter (closes_cons (by decide))
    simp only [items?, hpart.value hn hcloses, skip_gap hafter]
    rfl
  more {n part d rest} hpart hn := by
    have hcloses : Closes (',' :: rest) := closes_cons (by decide)
    simp only [items?, hpart.value hn hcloses]
    rfl
  opens h := h.opens
  empty := .of_succ rfl (by decide) fun _ _ => rfl
  opened {n c cs cs'} h hc := by
    rw [value?_bracket, h]
    split
    case h_1 heq => cases heq; exact absurd rfl hc
    case h_2 => rfl

structure ReadsEntry (part : List Char) (e : String × Document) : Prop where
  split : ∃ gap text, IsGap gap ∧ Reads text e.2 ∧ part = quoted e.1 ++ ':' :: (gap ++ text)

/-- How far a table is read before it is known whether the entry was its last. -/
theorem ReadsEntry.read {e : String × Document} (h : ReadsEntry part e) (hn : part.length ≤ n)
    (hrest : Closes rest) : ∃ cs name more, skip (part ++ rest) = '"' :: cs ∧
      string? (cs.length + 1) cs = some (name, ':' :: more) ∧ String.ofList name = e.1 ∧
      value? n more = some (e.2, rest) := by
  obtain ⟨gap, text, hgap, htext, rfl⟩ := h.split
  simp only [List.length_append, List.length_cons] at hn
  have hvalue := htext.value (n := n) (by omega) hrest
  have hpart : quoted e.1 ++ ':' :: (gap ++ text) ++ rest =
      '"' :: (e.1.toList.flatMap escape ++ '"' :: ':' :: (gap ++ (text ++ rest))) := by
    simp [quoted]
  rw [hpart]
  exact ⟨_, _, gap ++ (text ++ rest), rfl, string?_quoted e.1 _, String.ofList_toList,
    (value?_gap hgap).trans hvalue⟩

theorem skip_colon : skip (':' :: cs) = ':' :: cs := rfl

theorem value?_brace : value? (n + 1) ('\x7b' :: cs) = match skip cs with
    | '\x7d' :: rest => some (.table [], rest)
    | cs => (members? n cs).map fun (es, rest) => (.table es, rest) := rfl

theorem isSequence_members : IsSequence '\x7b' '\x7d' members? .table ReadsEntry where
  gap := members?_gap
  last {n part e after rest} hpart hn hafter := by
    have hcloses : Closes (after ++ '\x7d' :: rest) := closes_gap hafter (closes_cons (by decide))
    obtain ⟨cs, name, more, hquote, hstring, hname, hvalue⟩ := hpart.read hn hcloses
    simp only [members?, hquote, hstring, skip_colon, hvalue, hname, skip_gap hafter]
    rfl
  more {n part e rest} hpart hn := by
    have hcloses : Closes (',' :: rest) := closes_cons (by decide)
    obtain ⟨cs, name, more, hquote, hstring, hname, hvalue⟩ := hpart.read hn hcloses
    simp only [members?, hquote, hstring, skip_colon, hvalue, hname]
    rfl
  opens h := by
    obtain ⟨gap, text, -, -, rfl⟩ := h.split
    exact ⟨'"', _, rfl, rfl, by decide⟩
  empty := .of_succ rfl (by decide) fun _ _ => rfl
  opened {n c cs cs'} h hc := by
    rw [value?_brace, h]
    split
    case h_1 heq => cases heq; exact absurd rfl hc
    case h_2 => rfl

/-! Documents. -/

theorem compactItems_eq (items : List Document) : compactItems items = items.map compactChars := by
  induction items with
  | nil => rfl
  | cons d items ih => rw [compactItems, ih, List.map_cons]

theorem compactMembers_eq (entries : List (String × Document)) :
    compactMembers entries = entries.map fun e => quoted e.1 ++ ':' :: compactChars e.2 := by
  induction entries with
  | nil => rfl
  | cons e entries ih => rw [compactMembers, ih, List.map_cons]

theorem reads_compact (h : d.IsExact) : Reads (compactChars d) d := by
  induction h with
  | null => exact .of_succ rfl (by decide) fun _ _ => rfl
  | bool b => cases b <;> exact .of_succ rfl (by decide) fun _ _ => rfl
  | int low high => exact reads_int low high
  | str s => exact reads_quoted s
  | list _ ih =>
    rw [compactChars, compactItems_eq]
    refine isSequence_items.reads_tight (List.forall₂_map_left_iff.mpr ?_)
    exact List.forall₂_same.mpr ih
  | table _ ih =>
    rw [compactChars, compactMembers_eq]
    refine isSequence_members.reads_tight (List.forall₂_map_left_iff.mpr ?_)
    exact List.forall₂_same.mpr fun e he => ⟨[], compactChars e.2, isGap_nil, ih e he, rfl⟩

theorem prettyItems_eq (level : Nat) (items : List Document) :
    prettyItems level items = items.map (prettyChars level) := by
  induction items with
  | nil => rfl
  | cons d items ih => rw [prettyItems, ih, List.map_cons]

theorem prettyMembers_eq (level : Nat) (entries : List (String × Document)) :
    prettyMembers level entries =
      entries.map fun e => quoted e.1 ++ ':' :: ' ' :: prettyChars level e.2 := by
  induction entries with
  | nil => rfl
  | cons e entries ih => rw [prettyMembers, ih, List.map_cons]

theorem reads_pretty (h : d.IsExact) (level : Nat) : Reads (prettyChars level d) d := by
  induction h generalizing level with
  | null => exact .of_succ rfl (by decide) fun _ _ => rfl
  | bool b => cases b <;> exact .of_succ rfl (by decide) fun _ _ => rfl
  | int low high => exact reads_int low high
  | str s => exact reads_quoted s
  | list _ ih =>
    rw [prettyChars, prettyItems_eq]
    refine isSequence_items.reads_block (List.forall₂_map_left_iff.mpr ?_) level
    exact List.forall₂_same.mpr fun d hd => ih d hd (level + 1)
  | table _ ih =>
    rw [prettyChars, prettyMembers_eq]
    refine isSequence_members.reads_block (List.forall₂_map_left_iff.mpr ?_) level
    refine List.forall₂_same.mpr fun e he => ⟨[' '], _, ?_, ih e he (level + 1), rfl⟩
    exact fun c hc => List.mem_singleton.mp hc ▸ rfl

theorem Reads.parseChars (h : Reads part d) : parseChars part = some d := by
  have hvalue := h.value (n := 2 * part.length + 2) (by omega) closes_nil
  rw [List.append_nil] at hvalue
  rw [Json.parseChars, hvalue]
  rfl

/-- What is written on one line reads back. -/
theorem parse_compact (h : d.IsExact) : parse (compact d) = some d := by
  rw [parse, compact, String.toList_ofList]
  exact (reads_compact h).parseChars

/-- What is written with indentation reads back. -/
theorem parse_pretty (h : d.IsExact) : parse (pretty d) = some d := by
  rw [parse, pretty, String.toList_ofList]
  exact (reads_pretty h 0).parseChars

def OpensNone (c : Char) : Prop :=
  c ∉ ['"', '[', '\x7b', 't', 'f', 'n', '-'] ∧ c.isDigit = false ∧ isSpace c = false

theorem value?_of_opensNone (h : OpensNone c) : value? n (c :: cs) = none := by
  obtain ⟨hletter, hdigit, hspace⟩ := h
  cases n with
  | zero => rfl
  | succ n =>
    rw [value?, skip_of_not_space hspace]
    split
    case h_7 =>
      have hc : c ≠ '-' := by
        rintro rfl
        exact hletter (by decide)
      simp [number?, hc, digits?, hdigit]
    all_goals
      rename_i heq
      cases heq
      exact absurd (by decide) hletter

theorem parse_of_opensNone {s : String} (hs : s.toList.head? = some c) (h : OpensNone c) :
    parse s = none := by
  obtain ⟨cs, hcs⟩ := List.head?_eq_some_iff.mp hs
  rw [parse, hcs, parseChars, value?_of_opensNone h]

end Json
end SelectiveTrace
