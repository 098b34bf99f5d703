/-!
# Cache lines

Every block of a segment starts on a cache line of its own, so that two processes that write to different blocks do not
share one.

* `le_alignUp`, `alignUp_lt`: rounding up adds less than a line.
* `dvd_alignUp`, `alignUp_of_dvd`: what is rounded up is a whole number of lines, and nothing is added to one.
-/

namespace MediaChannels

/-- Bytes in a cache line. -/
def cacheLine : Nat := 64

/-- A size rounded up to whole cache lines. -/
def alignUp (size : Nat) : Nat := (size + (cacheLine - 1)) / cacheLine * cacheLine

theorem le_alignUp (size : Nat) : size ≤ alignUp size := by
  simp only [alignUp, cacheLine]
  omega

theorem alignUp_lt (size : Nat) : alignUp size < size + cacheLine := by
  simp only [alignUp, cacheLine]
  omega

theorem dvd_alignUp (size : Nat) : cacheLine ∣ alignUp size := Nat.dvd_mul_left _ _

theorem alignUp_of_dvd {size : Nat} (h : cacheLine ∣ size) : alignUp size = size := by
  obtain ⟨lines, rfl⟩ := h
  simp only [alignUp, cacheLine]
  omega

end MediaChannels
