import MediaChannels.Text.Utf8

/-!
# UTF-8 round trip

The bytes of a text are read back as that text: every character is one item.

* `lead_two`, `lead_three`, `lead_four`: what the first byte of a character announces, and that it admits the second.
* `items_encodeChar`: the bytes of a character are the item of that character.
* `decodeLossy_encode`, `decode?_encode`: decoding undoes encoding.
* `takeWhile_encode`: a text without NUL can be passed on as bytes that end with a zero.
-/

namespace MediaChannels.Utf8

variable {v : Nat}

/-! ## Bytes of a character -/

/-- A byte after the first: six bits under a mark. -/
def tail (n : Nat) : UInt8 := UInt8.ofNat (n % 0x40 + 0x80)

theorem toNat_tail (n : Nat) : (tail n).toNat = n % 64 + 128 := by
  rw [tail, UInt8.toNat_ofNat']
  omega

theorem tail_mod (n : Nat) : (tail n).toNat % 64 = n % 64 := by
  rw [toNat_tail]
  omega

theorem continuation_tail (more value n : Nat) (rest : List UInt8) :
    continuation (more + 1) value (tail n :: rest) = continuation more (value * 64 + n % 64) rest := by
  have hb : (0x80 ≤ tail n && tail n ≤ 0xBF) = true := by
    simp only [Bool.and_eq_true, decide_eq_true_eq, UInt8.le_iff_toNat_le, toNat_tail, UInt8.reduceToNat]
    omega
  rw [continuation, if_pos hb, tail_mod]

/-- The lead byte admits a second byte with these six bits. -/
def Lead.Admits (lead : Lead) (n : Nat) : Prop := lead.low.toNat ≤ n % 64 + 128 ∧ n % 64 + 128 ≤ lead.high.toNat

theorem step_of_lead {b : UInt8} {lead : Lead} {n : Nat} (hb : 0x80 ≤ b.toNat) (hl : Lead.of? b = some lead)
    (hn : lead.Admits n) (rest : List UInt8) :
    step b (tail n :: rest) = continuation lead.more (lead.bits * 64 + n % 64) rest := by
  have hascii : ¬b < 0x80 := by
    rw [UInt8.lt_iff_toNat_lt]
    exact Nat.not_lt.2 hb
  have hadmits : (lead.low ≤ tail n && tail n ≤ lead.high) = true := by
    simp only [Bool.and_eq_true, decide_eq_true_eq, UInt8.le_iff_toNat_le, toNat_tail]
    exact hn
  unfold step
  rw [if_neg hascii, hl]
  dsimp only
  rw [if_pos hadmits, tail_mod]

/-! ## First bytes -/

theorem lead_two (h : 0x7f < v) (h' : v ≤ 0x7ff) :
    (UInt8.ofNat (v / 64 % 0x20 + 0xc0)).toNat = v / 64 + 192 ∧
      Lead.of? (UInt8.ofNat (v / 64 % 0x20 + 0xc0)) = some ⟨v / 64, 0x80, 0xBF, 0⟩ := by
  have hn : (UInt8.ofNat (v / 64 % 0x20 + 0xc0)).toNat = v / 64 + 192 := by
    rw [UInt8.toNat_ofNat']
    omega
  refine ⟨hn, ?_⟩
  have hc : (0xC2 ≤ v / 64 + 192 && v / 64 + 192 ≤ 0xDF) = true := by
    simp only [Bool.and_eq_true, decide_eq_true_eq]
    omega
  have hb : (v / 64 + 192) % 32 = v / 64 := by omega
  simp only [Lead.of?, hn, hc, hb, if_true]

theorem lead_three (h : 0x7ff < v) (h' : v ≤ 0xffff) (hv : v < 0xd800 ∨ 0xdfff < v) :
    (UInt8.ofNat (v / 4096 % 0x10 + 0xe0)).toNat = v / 4096 + 224 ∧
      ∃ lead, Lead.of? (UInt8.ofNat (v / 4096 % 0x10 + 0xe0)) = some lead ∧ lead.bits = v / 4096 ∧ lead.more = 1 ∧
        lead.Admits (v / 64) := by
  have hn : (UInt8.ofNat (v / 4096 % 0x10 + 0xe0)).toNat = v / 4096 + 224 := by
    rw [UInt8.toNat_ofNat']
    omega
  refine ⟨hn, ?_⟩
  simp only [Lead.of?, hn, Bool.and_eq_true, decide_eq_true_eq, beq_iff_eq]
  rw [if_neg (by omega)]
  -- The second byte is bounded after 0xE0, to rule out overlong forms, and after 0xED, to rule out surrogates.
  split
  · exact ⟨_, rfl, by dsimp only; omega, rfl, by simp only [Lead.Admits, UInt8.reduceToNat]; omega⟩
  split
  · exact ⟨_, rfl, by dsimp only; omega, rfl, by simp only [Lead.Admits, UInt8.reduceToNat]; omega⟩
  rw [if_pos (by omega)]
  exact ⟨_, rfl, by dsimp only; omega, rfl, by simp only [Lead.Admits, UInt8.reduceToNat]; omega⟩

theorem lead_four (h : 0xffff < v) (h' : v < 0x110000) :
    (UInt8.ofNat (v / 262144 % 0x08 + 0xf0)).toNat = v / 262144 + 240 ∧
      ∃ lead, Lead.of? (UInt8.ofNat (v / 262144 % 0x08 + 0xf0)) = some lead ∧ lead.bits = v / 262144 ∧ lead.more = 2 ∧
        lead.Admits (v / 4096) := by
  have hn : (UInt8.ofNat (v / 262144 % 0x08 + 0xf0)).toNat = v / 262144 + 240 := by
    rw [UInt8.toNat_ofNat']
    omega
  refine ⟨hn, ?_⟩
  simp only [Lead.of?, hn, Bool.and_eq_true, decide_eq_true_eq, beq_iff_eq]
  rw [if_neg (by omega), if_neg (by omega), if_neg (by omega), if_neg (by omega)]
  -- Here the bounds rule out overlong forms and numbers that are too large.
  split
  · exact ⟨_, rfl, by dsimp only; omega, rfl, by simp only [Lead.Admits, UInt8.reduceToNat]; omega⟩
  split
  · exact ⟨_, rfl, by dsimp only; omega, rfl, by simp only [Lead.Admits, UInt8.reduceToNat]; omega⟩
  rw [if_pos (by omega)]
  exact ⟨_, rfl, by dsimp only; omega, rfl, by simp only [Lead.Admits, UInt8.reduceToNat]; omega⟩

/-! ## Characters and texts -/

theorem items_of_step {b : UInt8} {bytes rest : List UInt8} {c : Char} (h : step b bytes = (some c, rest)) :
    items (b :: bytes) = some c :: items rest := by
  rw [items, h]

/-- The bytes of a character are one item, that character. -/
theorem items_encodeChar (c : Char) (rest : List UInt8) :
    items (String.utf8EncodeChar c ++ rest) = some c :: items rest := by
  have hv : c.val.toNat < 0xd800 ∨ 0xdfff < c.val.toNat ∧ c.val.toNat < 0x110000 := c.valid
  have hc : Char.ofNat c.val.toNat = c := Char.ofNat_toNat c
  unfold String.utf8EncodeChar
  generalize c.val.toNat = v at hv hc
  dsimp only
  by_cases h1 : v ≤ 0x7f
  · have hn : (UInt8.ofNat v).toNat = v := by
      rw [UInt8.toNat_ofNat']
      omega
    have hb : UInt8.ofNat v < 0x80 := by
      rw [UInt8.lt_iff_toNat_lt, hn]
      exact Nat.lt_succ_of_le h1
    rw [if_pos h1]
    apply items_of_step
    unfold step
    rw [if_pos hb, hn, hc]
    rfl
  rw [if_neg h1]
  by_cases h2 : v ≤ 0x7ff
  · obtain ⟨hb, hl⟩ := lead_two (Nat.not_le.1 h1) h2
    rw [if_pos h2]
    apply items_of_step
    have hval : v / 64 * 64 + v % 64 = v := by omega
    refine (step_of_lead (n := v) (by omega) hl ?_ rest).trans ?_
    · simp only [Lead.Admits, UInt8.reduceToNat]
      omega
    · rw [continuation, hval, hc]
  rw [if_neg h2]
  by_cases h3 : v ≤ 0xffff
  · obtain ⟨hb, lead, hl, hbits, hmore, hadmits⟩ := lead_three (Nat.not_le.1 h2) h3 (hv.imp_right And.left)
    rw [if_pos h3]
    apply items_of_step
    have hval : (v / 4096 * 64 + v / 64 % 64) * 64 + v % 64 = v := by omega
    refine (step_of_lead (by omega) hl hadmits (tail v :: rest)).trans ?_
    rw [hbits, hmore, continuation_tail, continuation, hval, hc]
  · have hlt : v < 0x110000 := by omega
    obtain ⟨hb, lead, hl, hbits, hmore, hadmits⟩ := lead_four (Nat.not_le.1 h3) hlt
    rw [if_neg h3]
    apply items_of_step
    have hval : ((v / 262144 * 64 + v / 4096 % 64) * 64 + v / 64 % 64) * 64 + v % 64 = v := by omega
    refine (step_of_lead (by omega) hl hadmits (tail (v / 64) :: tail v :: rest)).trans ?_
    rw [hbits, hmore, continuation_tail, continuation_tail, continuation, hval, hc]

theorem items_encode (s : String) : items (encode s) = s.toList.map some := by
  rw [encode]
  generalize s.toList = l
  induction l with
  | nil => rw [List.flatMap_nil, items, List.map_nil]
  | cons c l ih => rw [List.flatMap_cons, items_encodeChar, ih, List.map_cons]

/-- **The bytes of a text are decoded to that text.** -/
theorem decodeLossy_encode (s : String) : decodeLossy (encode s) = s := by
  have hget : (s.toList.map some).map (·.getD '\uFFFD') = s.toList := by
    rw [List.map_map]
    exact List.map_id _
  rw [decodeLossy, items_encode, hget, String.ofList_toList]

/-- No piece of the bytes of a text is malformed. -/
theorem decode?_encode (s : String) : decode? (encode s) = some s := by
  have hall (l : List Char) : (l.map some).mapM id = some l := by
    induction l with
    | nil => rfl
    | cons c l ih => simp [ih]
  rw [decode?, items_encode, hall, Option.map_some, String.ofList_toList]

/-- Only NUL has a zero among its bytes. -/
theorem eq_of_zero_mem {c : Char} (h : 0 ∈ String.utf8EncodeChar c) : c = '\x00' := by
  have hc : Char.ofNat c.val.toNat = c := Char.ofNat_toNat c
  have hv : c.val.toNat < 0xd800 ∨ 0xdfff < c.val.toNat ∧ c.val.toNat < 0x110000 := c.valid
  have hne {n : Nat} (h0 : 0 < n) (hn : n < 256) : ¬(0 : UInt8) = UInt8.ofNat n := by
    intro he
    have he := congrArg UInt8.toNat he
    rw [UInt8.toNat_ofNat', UInt8.toNat_zero] at he
    omega
  unfold String.utf8EncodeChar at h
  rw [← hc]
  generalize c.val.toNat = v at h hv
  dsimp only at h
  by_cases h1 : v ≤ 0x7f
  · rw [if_pos h1, List.mem_singleton] at h
    rcases Nat.eq_zero_or_pos v with rfl | hpos
    · rfl
    · exact absurd h (hne hpos (by omega))
  rw [if_neg h1] at h
  exfalso
  split at h
  · simp only [List.mem_cons, List.not_mem_nil, or_false] at h
    rcases h with h | h <;> exact hne (by omega) (by omega) h
  split at h
  · simp only [List.mem_cons, List.not_mem_nil, or_false] at h
    rcases h with h | h | h <;> exact hne (by omega) (by omega) h
  · simp only [List.mem_cons, List.not_mem_nil, or_false] at h
    rcases h with h | h | h | h <;> exact hne (by omega) (by omega) h

/-- A text without NUL is passed on as bytes that end with a zero. -/
theorem takeWhile_encode {s : String} (h : '\x00' ∉ s.toList) :
    (encode s ++ [0]).takeWhile (· != 0) = encode s := by
  have hne : ∀ b ∈ encode s, (b != 0) = true := by
    intro b hb
    obtain ⟨c, hc, hb⟩ := List.mem_flatMap.1 hb
    rw [bne_iff_ne]
    rintro rfl
    exact h (eq_of_zero_mem hb ▸ hc)
  rw [List.takeWhile_append_of_pos hne]
  exact List.append_nil _

/-- Only the empty text has no bytes. -/
theorem encode_eq_nil_iff {s : String} : encode s = [] ↔ s = "" := by
  constructor
  · intro h
    have hd := decodeLossy_encode s
    rw [h] at hd
    exact hd.symm.trans (by rw [decodeLossy, items]; rfl)
  · rintro rfl
    exact encode_empty

end MediaChannels.Utf8
