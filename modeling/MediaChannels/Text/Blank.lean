/-!
# Blank characters

The blanks of a text are the characters with the Unicode property `White_Space`. `trimBlanks` takes them off both ends
of a text and leaves those inside.

* `isBlank_of_isWhitespace`: every blank that the standard library knows is one.
* `trimBlanks_nil`, `trimBlanks_of_no_blank`: what trimming leaves alone.
-/

namespace MediaChannels.Text

/-- The property `White_Space`: twenty-five characters, most of them spaces of some width. -/
def isBlank (c : Char) : Bool :=
  let n := c.toNat
  (0x09 ≤ n && n ≤ 0x0D) || n == 0x20 || n == 0x85 || n == 0xA0 || n == 0x1680 || (0x2000 ≤ n && n ≤ 0x200A) ||
    n == 0x2028 || n == 0x2029 || n == 0x202F || n == 0x205F || n == 0x3000

theorem isBlank_of_isWhitespace {c : Char} (h : c.isWhitespace = true) : isBlank c = true := by
  simp only [Char.isWhitespace, Bool.or_eq_true, decide_eq_true_eq] at h
  rcases h with ((h | h) | h) | h <;> subst h <;> decide

/-- A text without the blanks at either end. -/
def trimBlanks (s : List Char) : List Char :=
  ((s.dropWhile isBlank).reverse.dropWhile isBlank).reverse

@[simp] theorem trimBlanks_nil : trimBlanks [] = [] := rfl

theorem trimBlanks_of_no_blank {s : List Char} (h : ∀ c ∈ s, isBlank c = false) : trimBlanks s = s := by
  have drop : ∀ t : List Char, (∀ c ∈ t, isBlank c = false) → t.dropWhile isBlank = t := by
    intro t ht
    cases t with
    | nil => rfl
    | cons c r => simp [List.dropWhile, ht c (by simp)]
  rw [trimBlanks, drop s h, drop s.reverse (by simpa using h), List.reverse_reverse]

end MediaChannels.Text
