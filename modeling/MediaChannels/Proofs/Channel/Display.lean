import MediaChannels.Channel.Basic
import MediaChannels.Proofs.EventLanes.Queues
import MediaChannels.Proofs.PacketRing.Slots
import MediaChannels.Proofs.Text.Utf8

/-!
# The display selector

The selector is a text behind a sequence lock, so it is found again unless the lock is torn.

* `run_display`: reading again does not help on a memory that nobody changes; what the lock holds is what is found.
* `display_setDisplay`: the selector that was set last, unless the lock was torn before.
* `displayReady_init`: in a channel that was just set up the lock is not torn.
* `torn_crash_setDisplay_iff`: setting the selector tears the lock if it dies between its first and its last store.
-/

namespace MediaChannels.Channel

variable (channel : Channel) {m : Memory} {text : String}

theorem run_readAgain (lock : Seqlock) (attempts : Nat) (m : Memory) :
    (readAgain lock (attempts + 1)).run m = (lock.contents m, m) := by
  induction attempts with
  | zero =>
    rw [readAgain, Access.run_bind, lock.run_tryRead]
    cases lock.contents m <;> rfl
  | succ attempts ih =>
    rw [readAgain, Access.run_bind, lock.run_tryRead]
    cases hc : lock.contents m with
    | some frame => rfl
    | none =>
      rw [hc] at ih
      exact ih

theorem run_display (m : Memory) :
    channel.display.run m = (((channel.displayLock.contents m).filter (!·.data.isEmpty)).map fun frame =>
      Utf8.decodeLossy frame.data, m) := by
  rw [display, Access.run_bind, displayAttempts, run_readAgain]
  rfl

/-- The frame in which a selector stands. -/
def selector (text : String) : Frame := { index := 0, flags := 0, data := Utf8.encode text }

theorem run_setDisplay (hl : (Utf8.encode text).length ≤ Layout.displayCapacity) :
    (channel.setDisplay text).run m = (.ok (), ((channel.displayLock.write (selector text)).run m).2) := by
  simp only [setDisplay, Nat.not_lt.2 hl, if_false, Access.run_bind]
  rfl

/-- A selector that is too long is refused, and changes nothing. -/
theorem run_setDisplay_of_lt (hl : Layout.displayCapacity < (Utf8.encode text).length) :
    (channel.setDisplay text).run m =
      (.error (.payloadTooLarge Layout.displayCapacity (Utf8.encode text).length), m) := by
  simp only [setDisplay, hl, if_true, Access.run_pure]

theorem crash_setDisplay (hl : (Utf8.encode text).length ≤ Layout.displayCapacity) (n : Nat) :
    (channel.setDisplay text).crash n m = (channel.displayLock.write (selector text)).crash n m := by
  simp only [setDisplay, Nat.not_lt.2 hl, if_false]
  exact Access.crash_bind_pure _ _ _ _

/-- The lock of a selector has the size with which it is set up. -/
def DisplayReady (m : Memory) : Prop := channel.displayLock.capacityIn m = Layout.displayCapacity

variable {channel}

/-- **Setting up a channel leaves its lock whole**: lanes and ring come behind it. -/
theorem displayReady_init {sizes : Sizes} (hlayout : channel.layout = .of sizes) (m : Memory) :
    channel.DisplayReady ((channel.init sizes).run m).2 ∧ ¬channel.displayLock.Torn ((channel.init sizes).run m).2 := by
  obtain ⟨hevents, hpackets, -⟩ := Layout.blocks_le sizes
  have hend : channel.displayLock.base + Seqlock.size Layout.displayCapacity ≤ channel.events.base := by
    simp only [displayLock, events, hlayout]
    omega
  have hnext : channel.events.base ≤ channel.packets.base := by
    simp only [packets, events, hlayout]
    omega
  simp only [init, Access.run_bind]
  generalize ((channel.setCodec 0).run ((channel.setActive false).run m).2).2 = m₁
  generalize hm₂ : ((channel.displayLock.init Layout.displayCapacity).run m₁).2 = m₂
  have hagree : Memory.Agree channel.displayLock.base
      (channel.displayLock.base + Seqlock.size Layout.displayCapacity)
      ((channel.packets.init sizes.queueSize sizes.slotSize).run (channel.events.init.run m₂).2).2 m₂ :=
    (Access.agree_run_of_storesIn (channel.packets.init_storesIn _ _ _) (.inl (by omega))).trans
      (Access.agree_run_of_storesIn (channel.events.init_storesIn _) (.inl hend))
  have hheader : channel.displayLock.base + Seqlock.headerSize ≤
      channel.displayLock.base + Seqlock.size Layout.displayCapacity := Nat.add_le_add_left (by decide) _
  rw [DisplayReady, Seqlock.capacityIn_congr hagree hheader, Seqlock.torn_congr hagree hheader, ← hm₂]
  exact ⟨Seqlock.capacityIn_init _ _ (by decide), Seqlock.not_torn_init _ _⟩

theorem cut_selector (hc : channel.DisplayReady m) (hl : (Utf8.encode text).length ≤ Layout.displayCapacity) :
    channel.displayLock.cut (selector text) m = Utf8.encode text := by
  rw [Seqlock.cut, hc]
  exact List.take_of_length_le hl

/-- **The selector that was set last is found, unless the lock was torn before.** -/
theorem display_setDisplay (hc : channel.DisplayReady m)
    (hl : (Utf8.encode text).length ≤ Layout.displayCapacity) :
    (channel.display.run ((channel.setDisplay text).run m).2).1 =
      if channel.displayLock.Torn m ∨ text = "" then none else some text := by
  have hlt : channel.displayLock.capacityIn m < 2 ^ 32 := by
    rw [hc]
    decide
  rw [run_setDisplay channel hl, run_display, Seqlock.contents_run_write _ _ hlt, cut_selector hc hl]
  by_cases ht : channel.displayLock.Torn m
  · rw [if_pos ht, if_pos (.inl ht)]
    rfl
  rw [if_neg ht]
  by_cases he : text = ""
  · rw [if_pos (.inr he), he, Utf8.encode_empty]
    rfl
  · have hne : (Utf8.encode text).isEmpty = false := by
      rw [List.isEmpty_eq_false_iff]
      exact fun h => he (Utf8.encode_eq_nil_iff.1 h)
    rw [if_neg (not_or.2 ⟨ht, he⟩), Option.filter_some]
    dsimp only
    rw [hne, Bool.not_false, if_pos rfl, Option.map_some, Utf8.decodeLossy_encode]

/-- Setting the selector turns the parity of its lock around if it dies between its first and its last store. -/
theorem torn_crash_setDisplay_iff (hc : channel.DisplayReady m)
    (hl : (Utf8.encode text).length ≤ Layout.displayCapacity) (n : Nat) :
    channel.displayLock.Torn ((channel.setDisplay text).crash n m) ↔
      if 0 < n ∧ n < Seqlock.frameHeaderSize + (Utf8.encode text).length + 2 then ¬channel.displayLock.Torn m
      else channel.displayLock.Torn m := by
  rw [crash_setDisplay channel hl, Seqlock.torn_crash_write_iff, cut_selector hc hl]

/-- However early it stops, setting the selector leaves the size of its lock alone. -/
theorem DisplayReady.crash_setDisplay (hc : channel.DisplayReady m)
    (hl : (Utf8.encode text).length ≤ Layout.displayCapacity) (n : Nat) :
    channel.DisplayReady ((channel.setDisplay text).crash n m) := by
  rw [DisplayReady, Channel.crash_setDisplay channel hl, Seqlock.capacityIn, Seqlock.dataSize_crash_write]
  exact hc

end MediaChannels.Channel
