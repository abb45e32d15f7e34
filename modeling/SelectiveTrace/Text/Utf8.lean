/-! Reading bytes as UTF-8 text. Bytes that are no UTF-8 are refused by the strict reading; the
lossy reading shows each broken sequence as one replacement character. -/
namespace SelectiveTrace.Text

/-- Reads the `n` continuation bytes a lead byte asks for, the first of them between `low` and
`high`. The code point is absent when one of them does not fit; the rest starts at that byte. -/
def continuation : Nat → Nat → Nat → Nat → List UInt8 → Option Nat × List UInt8
  | 0, _, _, code, rest => (some code, rest)
  | _ + 1, _, _, _, [] => (none, [])
  | n + 1, low, high, code, b :: rest =>
    if low ≤ b.toNat ∧ b.toNat ≤ high then
      continuation n 0x80 0xBF (code * 64 + b.toNat % 64) rest
    else (none, b :: rest)

theorem length_continuation (n low high code : Nat) (bs : List UInt8) :
    (continuation n low high code bs).2.length ≤ bs.length := by
  induction n generalizing low high code bs with
  | zero => simp [continuation]
  | succ n ih =>
    cases bs with
    | nil => simp [continuation]
    | cons b rest =>
      simp only [continuation]
      split
      · exact Nat.le_trans (ih ..) (by simp)
      · simp

def firstChar (a : Nat) (rest : List UInt8) : Option Nat × List UInt8 :=
  if a ≤ 0x7F then (some a, rest)
  else if 0xC2 ≤ a ∧ a ≤ 0xDF then continuation 1 0x80 0xBF (a % 32) rest
  else if a = 0xE0 then continuation 2 0xA0 0xBF (a % 16) rest
  else if a = 0xED then continuation 2 0x80 0x9F (a % 16) rest
  else if 0xE1 ≤ a ∧ a ≤ 0xEF then continuation 2 0x80 0xBF (a % 16) rest
  else if a = 0xF0 then continuation 3 0x90 0xBF (a % 8) rest
  else if 0xF1 ≤ a ∧ a ≤ 0xF3 then continuation 3 0x80 0xBF (a % 8) rest
  else if a = 0xF4 then continuation 3 0x80 0x8F (a % 8) rest
  else (none, rest)

theorem length_firstChar (a : Nat) (rest : List UInt8) :
    (firstChar a rest).2.length ≤ rest.length := by
  unfold firstChar
  repeat' split
  all_goals first | exact length_continuation .. | simp

def lossyChars : List UInt8 → List Char
  | [] => []
  | a :: rest =>
    match h : firstChar a.toNat rest with
    | (code, rest') =>
      have : rest'.length ≤ rest.length := by
        simpa [h] using length_firstChar a.toNat rest
      (match code with
        | some n => Char.ofNat n
        | none => '\uFFFD') :: lossyChars rest'
termination_by bs => bs.length
decreasing_by simp; omega

def ofUtf8? (bytes : ByteArray) : Option String :=
  String.fromUTF8? bytes

def ofUtf8Lossy (bytes : ByteArray) : String :=
  match ofUtf8? bytes with
  | some s => s
  | none => String.ofList (lossyChars bytes.toList)

end SelectiveTrace.Text
