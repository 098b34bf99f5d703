/-!
# UTF-8

Decoding bytes as UTF-8, strictly and leniently. Both read the same items: a character, or a malformed piece, which is
the longest run of bytes that could still have become a character, and at least one byte.

* `step_length`: what follows an item is never longer than what followed its first byte, so decoding ends.
* `decodeLossy` writes U+FFFD for every malformed piece, `decode?` accepts none.
-/

namespace MediaChannels.Utf8

/-- What a lead byte announces: the bits it contributes, the range of the byte after it, and how many more follow. -/
structure Lead where
  bits : Nat
  low : UInt8
  high : UInt8
  more : Nat

/-- The lead bytes of characters beyond ASCII. Overlong forms, surrogates and numbers above U+10FFFF are ruled out by
the range of the second byte. -/
def Lead.of? (b : UInt8) : Option Lead :=
  let n := b.toNat
  if 0xC2 ≤ n && n ≤ 0xDF then some ⟨n % 32, 0x80, 0xBF, 0⟩
  else if n == 0xE0 then some ⟨0, 0xA0, 0xBF, 1⟩
  else if n == 0xED then some ⟨13, 0x80, 0x9F, 1⟩
  else if 0xE1 ≤ n && n ≤ 0xEF then some ⟨n % 16, 0x80, 0xBF, 1⟩
  else if n == 0xF0 then some ⟨0, 0x90, 0xBF, 2⟩
  else if 0xF1 ≤ n && n ≤ 0xF3 then some ⟨n % 8, 0x80, 0xBF, 2⟩
  else if n == 0xF4 then some ⟨4, 0x80, 0x8F, 2⟩
  else none

/-- Reads `more` continuation bytes into `value`. -/
def continuation : Nat → Nat → List UInt8 → Option Char × List UInt8
  | 0, value, rest => (some (Char.ofNat value), rest)
  | _ + 1, _, [] => (none, [])
  | more + 1, value, b :: rest =>
    if 0x80 ≤ b && b ≤ 0xBF then continuation more (value * 64 + b.toNat % 64) rest else (none, b :: rest)

/-- The item that starts with the byte `b`, and the bytes after it. -/
def step (b : UInt8) (rest : List UInt8) : Option Char × List UInt8 :=
  if b < 0x80 then (some (Char.ofNat b.toNat), rest)
  else match Lead.of? b, rest with
    | some lead, c :: rest' =>
      if lead.low ≤ c && c ≤ lead.high then continuation lead.more (lead.bits * 64 + c.toNat % 64) rest'
      else (none, rest)
    | _, _ => (none, rest)

theorem continuation_length (more value : Nat) (rest : List UInt8) :
    (continuation more value rest).2.length ≤ rest.length := by
  fun_induction continuation more value rest with
  | case1 => simp
  | case2 => simp
  | case3 _ _ b rest _ ih => exact Nat.le_trans ih (by simp)
  | case4 => simp

theorem step_length (b : UInt8) (rest : List UInt8) : (step b rest).2.length ≤ rest.length := by
  unfold step
  split
  · simp
  · split
    · split
      · exact Nat.le_trans (continuation_length _ _ _) (by simp)
      · simp
    · simp

/-- The items of a list of bytes; `none` is a malformed piece. -/
def items : List UInt8 → List (Option Char)
  | [] => []
  | b :: rest => (step b rest).1 :: items (step b rest).2
termination_by bytes => bytes.length
decreasing_by exact Nat.lt_succ_of_le (step_length b rest)

/-- The text of the bytes, with U+FFFD for every malformed piece. -/
def decodeLossy (bytes : List UInt8) : String :=
  String.ofList ((items bytes).map (·.getD '\uFFFD'))

/-- The text of the bytes, if no piece is malformed. -/
def decode? (bytes : List UInt8) : Option String :=
  (items bytes).mapM id |>.map String.ofList

/-- The bytes of a text. -/
def encode (s : String) : List UInt8 := s.toList.flatMap String.utf8EncodeChar

@[simp] theorem encode_empty : encode "" = [] := rfl

end MediaChannels.Utf8
