/-! Texts made to fit: cut in the middle, and freed of memory addresses. -/
namespace SelectiveTrace.Text

/-- Both ends of `cs` around an ellipsis, at most `max` characters when `max` is at least three; the
tail gets the odd one. -/
def shortenChars (max : Nat) (cs : List Char) : List Char :=
  if cs.length ≤ max then cs
  else
    let budget := max - 3
    let left := budget / 2
    cs.take left ++ ['.', '.', '.'] ++ cs.drop (cs.length - (budget - left))

theorem shortenChars_of_length_le {max : Nat} {cs : List Char} (h : cs.length ≤ max) :
    shortenChars max cs = cs := if_pos h

theorem length_shortenChars {max : Nat} {cs : List Char} (h : 3 ≤ max) :
    (shortenChars max cs).length ≤ max := by
  unfold shortenChars
  split
  · assumption
  · simp only [List.length_append, List.length_take, List.length_drop, List.length_cons,
      List.length_nil]
    omega

def shorten (max : Nat) (s : String) : String :=
  String.ofList (shortenChars max s.toList)

def isHex (c : Char) : Bool :=
  ('0' ≤ c && c ≤ '9') || ('a' ≤ c && c ≤ 'f') || ('A' ≤ c && c ≤ 'F')

def addressMark : List Char :=
  [' ', 'a', 't', ' ', '0', 'x']

/-- What follows an address, when one stands in front: its mark and at least four digits, and then
all digits there are. -/
def afterAddress? (cs : List Char) : Option (List Char) :=
  if addressMark.isPrefixOf cs then
    let digits := cs.drop 6
    if 4 ≤ (digits.takeWhile isHex).length then some (digits.dropWhile isHex) else none
  else none

theorem length_afterAddress? {cs rest : List Char} (h : afterAddress? cs = some rest) :
    rest.length < cs.length := by
  unfold afterAddress? at h
  split at h
  · rename_i hm
    have h6 : 6 ≤ cs.length := by
      simpa [addressMark] using (List.isPrefixOf_iff_prefix.1 hm).length_le
    simp only at h
    split at h
    · cases h
      have := (List.dropWhile_suffix isHex (l := cs.drop 6)).length_le
      simp at this
      omega
    · simp at h
  · simp at h

def dropAddresses : List Char → List Char
  | [] => []
  | c :: cs =>
    match h : afterAddress? (c :: cs) with
    | some rest =>
      have := length_afterAddress? h
      dropAddresses rest
    | none => c :: dropAddresses cs
termination_by cs => cs.length
decreasing_by
  · exact this
  · exact Nat.lt_succ_self _

def normalize (s : String) : String :=
  String.ofList (dropAddresses s.toList)

end SelectiveTrace.Text
