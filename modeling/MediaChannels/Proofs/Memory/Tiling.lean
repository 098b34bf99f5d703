import MediaChannels.Memory.CacheLine

/-!
# Blocks that follow one another

A list of blocks, each with an offset and a size, tiles an interval of memory if the first starts with the interval,
each of the others starts where the one before it ends, and the last ends with the interval.

* `Tiles.append`, `Tiles.flatMap`: intervals side by side, and an interval whose blocks are tiled in turn.
* `tiles_of_stride`: blocks of one size at equal distances.
* `Tiles.bounds`, `Tiles.disjoint`, `Tiles.exists_mem`: every offset of the interval lies in exactly one block.
-/

namespace MediaChannels

variable {β γ : Type} {start size : β → Nat} {start' size' : γ → Nat} {lo mid hi : Nat} {b b' : β} {bs bs' : List β}

/-- The blocks follow one another without a gap, the first of them from `lo` on and the last up to `hi`. -/
inductive Tiles (start size : β → Nat) : Nat → List β → Nat → Prop
  | nil (lo : Nat) : Tiles start size lo [] lo
  | cons {lo hi : Nat} {b : β} {rest : List β} (hstart : start b = lo)
      (hrest : Tiles start size (lo + size b) rest hi) : Tiles start size lo (b :: rest) hi

/-- One block tiles what it takes. -/
theorem tiles_singleton (hstart : start b = lo) (hstop : start b + size b = hi) : Tiles start size lo [b] hi := by
  subst hstart hstop
  exact .cons rfl (.nil _)

/-- **Blocks of one size at equal distances** follow one another. -/
theorem tiles_of_stride {stride : Nat} (hstart : ∀ (i : Nat) (h : i < bs.length), start bs[i] = lo + i * stride)
    (hsize : ∀ b ∈ bs, size b = stride) : Tiles start size lo bs (lo + bs.length * stride) := by
  induction bs generalizing lo with
  | nil =>
    rw [List.length_nil, Nat.zero_mul]
    exact .nil lo
  | cons b rest ih =>
    have hfirst : start b = lo := by
      have h := hstart 0 (Nat.zero_lt_succ _)
      rwa [Nat.zero_mul] at h
    have hb := hsize b List.mem_cons_self
    have hrest : Tiles start size (lo + stride) rest (lo + stride + rest.length * stride) := by
      refine ih (fun i hi => ?_) fun c hc => hsize c (List.mem_cons_of_mem _ hc)
      have h := hstart (i + 1) (Nat.succ_lt_succ hi)
      rw [Nat.succ_mul, Nat.add_comm (i * stride), ← Nat.add_assoc] at h
      exact h
    rw [List.length_cons, Nat.succ_mul, Nat.add_comm (_ * stride), ← Nat.add_assoc]
    exact .cons hfirst (hb ▸ hrest)

namespace Tiles

/-! ## Larger tilings -/

/-- Intervals side by side. -/
theorem append (h : Tiles start size lo bs mid) (h' : Tiles start size mid bs' hi) :
    Tiles start size lo (bs ++ bs') hi := by
  induction h with
  | nil => exact h'
  | cons hstart _ ih => exact .cons hstart (ih h')

/-- An interval whose blocks are tiled in turn. -/
theorem flatMap {f : β → List γ} (h : Tiles start size lo bs hi)
    (hf : ∀ b ∈ bs, Tiles start' size' (start b) (f b) (start b + size b)) :
    Tiles start' size' lo (bs.flatMap f) hi := by
  induction h with
  | nil => exact .nil _
  | @cons lo hi b rest hstart _ ih =>
    have hfirst := hf b List.mem_cons_self
    rw [hstart] at hfirst
    exact hfirst.append (ih fun c hc => hf c (List.mem_cons_of_mem _ hc))

theorem map {f : β → γ} (h : Tiles (start' ∘ f) (size' ∘ f) lo bs hi) : Tiles start' size' lo (bs.map f) hi := by
  induction h with
  | nil => exact .nil _
  | cons hstart _ ih => exact .cons hstart ih

/-! ## What lies where -/

theorem le (h : Tiles start size lo bs hi) : lo ≤ hi := by
  induction h with
  | nil => exact Nat.le_refl _
  | cons _ _ ih => exact Nat.le_trans (Nat.le_add_right _ _) ih

/-- Every block lies inside the interval. -/
theorem bounds (h : Tiles start size lo bs hi) (hb : b ∈ bs) : lo ≤ start b ∧ start b + size b ≤ hi := by
  induction h with
  | nil => cases hb
  | cons hstart hrest ih =>
    rcases List.mem_cons.1 hb with rfl | hmem
    · rw [hstart]
      exact ⟨Nat.le_refl _, hrest.le⟩
    · exact ⟨Nat.le_trans (Nat.le_add_right _ _) (ih hmem).1, (ih hmem).2⟩

/-- **Different blocks do not overlap.** -/
theorem disjoint (h : Tiles start size lo bs hi) (hb : b ∈ bs) (hb' : b' ∈ bs) (hne : b ≠ b') :
    start b + size b ≤ start b' ∨ start b' + size b' ≤ start b := by
  induction h with
  | nil => cases hb
  | cons hstart hrest ih =>
    rcases List.mem_cons.1 hb with rfl | hmem <;> rcases List.mem_cons.1 hb' with rfl | hmem'
    · exact absurd rfl hne
    · rw [hstart]
      exact .inl (hrest.bounds hmem').1
    · rw [hstart]
      exact .inr (hrest.bounds hmem).1
    · exact ih hmem hmem'

/-- **There is no gap**: every offset of the interval lies in a block. -/
theorem exists_mem (h : Tiles start size lo bs hi) {offset : Nat} (hlo : lo ≤ offset) (hhi : offset < hi) :
    ∃ b ∈ bs, start b ≤ offset ∧ offset < start b + size b := by
  induction h with
  | nil => exact absurd hlo (Nat.not_le.2 hhi)
  | @cons lo hi b rest hstart _ ih =>
    rcases Nat.lt_or_ge offset (lo + size b) with hlt | hge
    · exact ⟨b, List.mem_cons_self, hstart ▸ hlo, hstart ▸ hlt⟩
    · obtain ⟨c, hc, hin⟩ := ih hge hhi
      exact ⟨c, List.mem_cons_of_mem _ hc, hin⟩

/-- Blocks of whole cache lines start with a line if the first of them does. -/
theorem dvd_start (h : Tiles start size lo bs hi) (hlo : cacheLine ∣ lo) (hsize : ∀ b ∈ bs, cacheLine ∣ size b)
    (hb : b ∈ bs) : cacheLine ∣ start b := by
  induction h with
  | nil => cases hb
  | cons hstart _ ih =>
    rcases List.mem_cons.1 hb with rfl | hmem
    · exact hstart ▸ hlo
    · have hnext := Nat.dvd_add hlo (hsize _ List.mem_cons_self)
      exact ih hnext (fun c hc => hsize c (List.mem_cons_of_mem _ hc)) hmem

end Tiles

end MediaChannels
