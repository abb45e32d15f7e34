import SelectiveTrace.Proofs.Format.Json
import SelectiveTrace.Proofs.Scope.Index

/-! The wire: a query as an operation and a parameter, an answer as one line of text, and what is
read back from them. -/
namespace SelectiveTrace

namespace Text

theorem withoutPlus_of_digits {ds : List Char} (h : ∀ c ∈ ds, c.isDigit) : withoutPlus ds = ds := by
  unfold withoutPlus
  split
  case h_1 rest => exact absurd (h '+' List.mem_cons_self) (by decide)
  case h_2 => rfl

/-- A number that fits is read from its digits. -/
theorem natural?_toString {bits n : Nat} (h : n < 2 ^ bits) :
    natural? bits (toString n) = some n := by
  have hdigits : ∀ c ∈ Nat.toDigits 10 n, c.isDigit :=
    fun c hc => Nat.isDigit_of_mem_toDigits (by decide) (by decide) hc
  have hvalue : digitsNat (Nat.toDigits 10 n) = n := Nat.ofDigitChars_ten_toDigits
  have hall : (Nat.toDigits 10 n).all Char.isDigit := List.all_eq_true.mpr hdigits
  simp [natural?, withoutPlus_of_digits hdigits, hall, hvalue, Nat.toDigits_ne_nil, h]

/-- A line without blanks around it is what trimming leaves of it and its end. -/
theorem trim_line {c d : Char} {cs : List Char} (hc : isBlank c = false) (hd : isBlank d = false) :
    trim (String.ofList (c :: (cs ++ [d])) ++ "\n") = String.ofList (c :: (cs ++ [d])) := by
  have hend : isBlank '\n' = true := rfl
  simp [trim, dropBlanks, dropBlanksEnd, hc, hd, hend]

/-- Trimming leaves the first character of a text where it is no blank. -/
theorem head_trim {s : String} {c : Char} (hs : s.toList.head? = some c) (hc : isBlank c = false) :
    (trim s).toList.head? = some c := by
  obtain ⟨cs, hcs⟩ := List.head?_eq_some_iff.mp hs
  have hstart : dropBlanks (c :: cs) = c :: cs := by simp [dropBlanks, hc]
  have hend : dropBlanksEnd (c :: cs) = c :: dropBlanksEnd cs := by
    unfold dropBlanksEnd
    rw [List.reverse_cons, List.dropWhile_append]
    split <;> simp_all
  simp [trim, hcs, hstart, hend]

end Text

namespace ScopeQuery

def IsSized : ScopeQuery → Prop
  | .statementRange line | .belongingMethod line => line < 2 ^ 32
  | .methodRange _ => True

/-- A query is read from its parts. -/
theorem ofParts?_parts {query : ScopeQuery} (h : query.IsSized) :
    ofParts? query.opName query.param = some query := by
  cases query with
  | statementRange line => exact congrArg (Option.map _) (Text.natural?_toString h)
  | belongingMethod line => exact congrArg (Option.map _) (Text.natural?_toString h)
  | methodRange name => rfl

end ScopeQuery

/-- A number that fits is read from its document. -/
theorem Document.asNat?_int {bits n : Nat} (h : n < 2 ^ bits) : asNat? bits (.int n) = some n := by
  have hn : (n : Int) < Nat.pow 2 bits := Int.ofNat_lt.mpr h
  simp only [asNat?, asInt?, Int.natCast_nonneg, hn, and_self, if_true, Option.map_some,
    Int.toNat_natCast]

namespace ScopeReply
variable {r : ScopeReply} {span : Option LineSpan} {k : Nat}

structure IsSized (r : ScopeReply) : Prop where
  start : ∀ n ∈ r.start, n < 2 ^ 32
  stop : ∀ n ∈ r.stop, n < 2 ^ 32

open Document in
theorem isExact_end {n : Option Nat} (h : ∀ m ∈ n, m < 2 ^ 32) :
    (ofOption (fun n : Nat => .int n) n).IsExact := by
  cases n with
  | none => exact .null
  | some n =>
    have hn : n < 2 ^ 32 := h n rfl
    exact .int (by omega) (by omega)

open Document in
theorem orDefault_end {bits : Nat} {n : Option Nat} (h : ∀ m ∈ n, m < 2 ^ bits) :
    orDefault none (asOptional? (asNat? bits)) (some (ofOption (fun n : Nat => .int n) n)) =
      some n := by
  cases n with
  | none => rfl
  | some n => simp only [orDefault, ofOption, asOptional?, asNat?_int (h n rfl), Option.map_some]

theorem isExact_toDocument (h : r.IsSized) : r.toDocument.IsExact := by
  refine .table fun e he => ?_
  rcases List.mem_pair.mp he with rfl | rfl
  · exact isExact_end h.start
  · exact isExact_end h.stop

theorem ofDocument?_toDocument (h : r.IsSized) : ofDocument? r.toDocument = some r := by
  have hstart := orDefault_end h.start
  have hstop := orDefault_end h.stop
  simp [ofDocument?, toDocument, Document.fields?, Document.item?, hstart, hstop]

/-- A text is no reply when no document begins with its first character. -/
theorem parse_of_opensNone {s : String} {c : Char} (hs : s.toList.head? = some c)
    (hc : Json.OpensNone c) (hb : Text.isBlank c = false) : parse s = none := by
  rw [parse, Json.parse_of_opensNone (Text.head_trim hs hb) hc]
  rfl

theorem text_eq : ∃ cs, r.text = String.ofList ('\x7b' :: (cs ++ ['\x7d'])) :=
  ⟨_, rfl⟩

/-- A printed reply is read back, the end of its line left out. -/
theorem parse_line (h : r.IsSized) : parse (r.text ++ "\n") = some r := by
  have htrim : Text.trim (r.text ++ "\n") = r.text := by
    obtain ⟨cs, htext⟩ := text_eq (r := r)
    rw [htext]
    exact Text.trim_line rfl rfl
  rw [parse, htrim, text, Json.parse_compact (isExact_toDocument h)]
  exact ofDocument?_toDocument h

theorem isSized_ofSpan (h : ∀ s ∈ span, s.IsWithin k) (hk : k < 2 ^ 32) :
    (ofSpan span).IsSized := by
  cases span with
  | none => exact ⟨nofun, nofun⟩
  | some s =>
    have hs := h s rfl
    constructor
    · rintro _ ⟨⟩
      exact (hs.ordered.trans hs.within).trans_lt hk
    · rintro _ ⟨⟩
      exact hs.within.trans_lt hk

/-- An answer with its lines in order is the range of its reply. -/
theorem span?_ofSpan (h : ∀ s ∈ span, s.IsWithin k) : (ofSpan span).span? = span := by
  cases span with
  | none => rfl
  | some s => exact if_pos (h s rfl).ordered

/-- What is printed of an answer tells it in full. -/
theorem answer_of_line (h : ∀ s ∈ span, s.IsWithin k) (hk : k < 2 ^ 32) :
    (parse ((ofSpan span).text ++ "\n")).bind span? = span := by
  rw [parse_line (isSized_ofSpan h hk)]
  exact span?_ofSpan h

end ScopeReply
end SelectiveTrace
