import MediaChannels.Proofs.SharedMemory.Names
import Mathlib.Data.List.Perm.Basic

/-!
# Owners of a name

Several owners of one name can be in use at once, since creating a region takes over what the name leads to. Each of
them removes the name when it is released, and whoever creates a region gives the object a size before it turns out
whether it can be mapped. So the newest owner of a name can lose it while it is in use.

* `RegionHistory.turn`, `RegionHistory.run`: regions are created, opened and released in any order.
* `RegionHistory.openRegion_newest`: the newest region of a name can be opened by others exactly as long as no other
  owner of the name was released and no creation under the name failed to map.
* `RegionHistory.openRegion_newest_of_singly`: so it always can if every name has one owner at a time.
* `RegionHistory.newest_loses_name`: otherwise not.
-/

namespace MediaChannels

open SharedMemory

/-- What somebody who uses regions does next. -/
inductive RegionTurn where
  | create (name : String) (size : Nat)
  | openRegion (name : String)
  /-- Gives up the region at a place in the list of those in use. -/
  | release (place : Nat)
  deriving DecidableEq, Repr

/-- Named shared memory, and those who use it. -/
structure RegionHistory where
  shared : SharedMemory
  /-- The regions in use, the newest first. -/
  held : List Region := []
  /-- The region that was created last under a name. -/
  newest : String → Option Region := fun _ => none
  /-- Whether, since then, an owner of the name was released, or a creation under the name failed when it came to
  mapping. -/
  disturbed : String → Bool := fun _ => false

namespace RegionHistory

/-- One turn. -/
def turn (h : RegionHistory) : RegionTurn → RegionHistory
  | .create name size =>
    match h.shared.create name size with
    | (.ok region, shared) =>
      { shared, held := region :: h.held
        newest := fun n => if n = name then some region else h.newest n
        disturbed := fun n => if n = name then false else h.disturbed n }
    | (.error (.notMapped _), shared) =>
      { h with shared, disturbed := fun n => if n = name then true else h.disturbed n }
    | (.error _, shared) => { h with shared }
  | .openRegion name =>
    match h.shared.openRegion name with
    | (.ok region, shared) => { h with shared, held := region :: h.held }
    | (.error _, shared) => { h with shared }
  | .release place =>
    match h.held[place]? with
    | some region =>
      { h with
        shared := h.shared.release region
        held := h.held.eraseIdx place
        disturbed := fun n => if region.owner ∧ n = region.name then true else h.disturbed n }
    | none => h

/-- All turns, one after the other. -/
def run (h : RegionHistory) (turns : List RegionTurn) : RegionHistory := turns.foldl turn h

variable {h : RegionHistory} {s : SharedMemory} {name : String} {size : Nat} {region : Region}

/-! ## The newest region of a name -/

/-- Where the newest region of a name was not disturbed, it is backed; where it was, the name is shut. -/
structure Sound (h : RegionHistory) : Prop where
  regular : h.shared.Regular
  newest_eq : ∀ name region, h.newest name = some region → region.name = name ∧ region.owner = true
  backed : ∀ name region, h.newest name = some region → h.disturbed name = false → h.shared.Backs region
  shut : ∀ name, h.disturbed name = true → h.shared.Shut name

theorem Sound.start (hs : s.Regular) : Sound { shared := s } := ⟨hs, nofun, nofun, nofun⟩

/-- Nothing but the table of names changes, and of this nothing that matters. -/
theorem Sound.congr (hh : h.Sound) {shared : SharedMemory} {held : List Region} (hregular : shared.Regular)
    (hbacked : ∀ region, h.shared.Backs region → shared.Backs region)
    (hshut : ∀ name, h.shared.Shut name → shared.Shut name) : Sound { h with shared, held } :=
  ⟨hregular, hh.newest_eq, fun _ _ hn hd => hbacked _ (hh.backed _ _ hn hd),
    fun _ hd => hshut _ (hh.shut _ hd)⟩

theorem Sound.create (hh : h.Sound) (name : String) (size : Nat) : (h.turn (.create name size)).Sound := by
  rcases hcreate : h.shared.create name size with ⟨outcome, shared⟩
  have hregular := hh.regular.create hcreate
  simp only [RegionHistory.turn, hcreate]
  cases hh.regular.creation hcreate with
  | refused hcause =>
    split
    · next heq => cases heq
    · next heq =>
      cases heq
      exact (hcause _ rfl).elim
    · next heq =>
      cases heq
      exact hh
  | notResized htouches hkept =>
    exact hh.congr hregular (fun _ hb => hb.kept hh.regular htouches hkept)
      (fun _ hs => hs.kept hh.regular htouches hkept)
  | notMapped htouches hsize hroom =>
    have hclosed := htouches.shut (hsize ▸ hroom)
    refine ⟨hregular, hh.newest_eq, ?_, ?_⟩
    · intro n region hn hd
      dsimp only at hd
      split at hd
      · cases hd
      next hne =>
      refine (hh.backed _ _ hn hd).touched hh.regular htouches ?_
      rwa [(hh.newest_eq _ _ hn).1]
    · intro n hd
      dsimp only at hd
      split at hd
      · next heq => exact heq ▸ hclosed
      next hne => exact (hh.shut _ hd).touched hh.regular htouches hne
  | made hname htouches hobject hpos hle =>
    have hbacked := (Backs.of_create hcreate).1
    refine ⟨hregular, ?_, ?_, ?_⟩
    · intro n region hn
      dsimp only at hn
      split at hn
      · next heq =>
        cases hn
        exact ⟨heq.symm, rfl⟩
      · exact hh.newest_eq _ _ hn
    · intro n region hn hd
      dsimp only at hn hd
      split at hn
      · cases hn
        exact hbacked
      next hne =>
      rw [if_neg hne] at hd
      refine (hh.backed _ _ hn hd).touched hh.regular htouches ?_
      rwa [(hh.newest_eq _ _ hn).1]
    · intro n hd
      dsimp only at hd
      split at hd
      · cases hd
      next hne => exact (hh.shut _ hd).touched hh.regular htouches hne

theorem Sound.openRegion (hh : h.Sound) (name : String) : (h.turn (.openRegion name)).Sound := by
  obtain ⟨mappings, hsnd⟩ := openRegion_snd h.shared name
  have hregular : ({ h.shared with mappings } : SharedMemory).Regular := hh.regular.congr (fun _ => rfl) rfl
  rcases hopen : h.shared.openRegion name with ⟨outcome, shared⟩
  obtain rfl : shared = { h.shared with mappings } := (congrArg Prod.snd hopen).symm.trans hsnd
  simp only [RegionHistory.turn, hopen]
  cases outcome with
  | ok region => exact hh.congr hregular (fun _ hb => hb.mapped mappings) fun _ hs => hs
  | error e => exact hh.congr hregular (fun _ hb => hb.mapped mappings) fun _ hs => hs

theorem Sound.release (hh : h.Sound) (place : Nat) : (h.turn (.release place)).Sound := by
  cases hplace : h.held[place]? with
  | none =>
    simp only [RegionHistory.turn, hplace]
    exact hh
  | some released =>
    simp only [RegionHistory.turn, hplace]
    refine ⟨hh.regular.release released, hh.newest_eq, ?_, ?_⟩
    · intro n region hn hd
      dsimp only at hd
      split at hd
      · cases hd
      next hother =>
      refine (hh.backed _ _ hn hd).release ?_
      rw [(hh.newest_eq _ _ hn).1]
      cases howner : released.owner with
      | false => exact .inl rfl
      | true => exact .inr fun heq => hother ⟨howner, heq⟩
    · intro n hd
      dsimp only at hd
      split at hd
      · next hself =>
        obtain ⟨howner, rfl⟩ := hself
        exact shut_release howner
      · exact (hh.shut _ hd).release released

/-- Every turn keeps this. -/
theorem Sound.turn (hh : h.Sound) (t : RegionTurn) : (h.turn t).Sound := by
  cases t with
  | create name size => exact hh.create name size
  | openRegion name => exact hh.openRegion name
  | release place => exact hh.release place

theorem Sound.run (hh : h.Sound) (turns : List RegionTurn) : (h.run turns).Sound := by
  induction turns generalizing h with
  | nil => exact hh
  | cons t turns ih => exact ih (hh.turn t)

/-- **When the newest region of a name can be opened.** It can, and the memory is the same, unless it was disturbed; and
then it cannot be opened at all. For a region that is still in use this means that it can be opened exactly if no older
owner of the name was released since, and no creation under the name failed when it came to mapping. -/
theorem openRegion_newest (hs : s.Regular) (turns : List RegionTurn)
    (hnewest : (run { shared := s } turns).newest name = some region) :
    let h := run { shared := s } turns
    (h.disturbed name = false → h.shared.openRegion name =
      (.ok { region with mapping := h.shared.mappings, owner := false },
        { h.shared with mappings := h.shared.mappings + 1 })) ∧
    (h.disturbed name = true → ∃ e, h.shared.openRegion name = (.error e, h.shared)) := by
  intro h
  have hh : h.Sound := (Sound.start hs).run turns
  constructor
  · intro hundisturbed
    obtain ⟨rfl, -⟩ := hh.newest_eq _ _ hnewest
    exact (hh.backed _ _ hnewest hundisturbed).openRegion
  · intro hdisturbed
    exact (hh.shut _ hdisturbed).openRegion

/-- So it is for a region that is created under a name that was used and given up before. -/
theorem openRegion_newest_desk :
    let turns : List RegionTurn := [.create "desk" 64, .release 0, .create "desk" 128, .openRegion "desk"]
    let h := run { shared := .empty } turns
    let region : Region := { mapping := 1, object := 1, size := 128, name := "desk", owner := true }
    empty.Regular ∧ h.newest "desk" = some region ∧ h.disturbed "desk" = false ∧
      h.shared.openRegion "desk" =
        (.ok { region with mapping := h.shared.mappings, owner := false },
          { h.shared with mappings := h.shared.mappings + 1 }) := by
  intro turns h region
  have hnewest : h.newest "desk" = some region := by decide
  have hundisturbed : h.disturbed "desk" = false := by decide
  exact ⟨regular_empty, hnewest, hundisturbed, (openRegion_newest regular_empty turns hnewest).1 hundisturbed⟩

/-! ## One owner at a time -/

/-- Nothing is created under a name that an owner in use has, and only what can be mapped. -/
def Alone (h : RegionHistory) : RegionTurn → Prop
  | .create name size => 0 < size ∧ size ≤ addressSpace ∧ ∀ region ∈ h.held, region.owner = true → region.name ≠ name
  | _ => True

/-- So it is at every turn. -/
def Singly (h : RegionHistory) : List RegionTurn → Prop
  | [] => True
  | t :: turns => h.Alone t ∧ (h.turn t).Singly turns

/-- No two owners in use have one name, and none has a name that was disturbed. -/
structure Apart (h : RegionHistory) : Prop where
  pairwise : h.held.Pairwise fun r r' => r.owner = true → r'.owner = true → r.name ≠ r'.name
  undisturbed : ∀ name, h.disturbed name = true → ∀ region ∈ h.held, region.owner = true → region.name ≠ name

theorem Apart.start : Apart { shared := s } := ⟨.nil, fun _ hd => nomatch hd⟩

theorem Apart.turn (ha : h.Apart) (hh : h.Sound) {t : RegionTurn} (halone : h.Alone t) : (h.turn t).Apart := by
  cases t with
  | create name size =>
    obtain ⟨hpos, hle, hnone⟩ := halone
    rcases hcreate : h.shared.create name size with ⟨outcome, shared⟩
    simp only [RegionHistory.turn, hcreate]
    cases hh.regular.creation hcreate with
    | refused hcause =>
      split
      · next heq => cases heq
      · next heq =>
        cases heq
        exact (hcause _ rfl).elim
      · exact ⟨ha.pairwise, ha.undisturbed⟩
    | notResized => exact ⟨ha.pairwise, ha.undisturbed⟩
    | notMapped _ _ hroom => omega
    | made =>
      constructor
      · exact List.pairwise_cons.2 ⟨fun r hr _ howner => Ne.symm (hnone r hr howner), ha.pairwise⟩
      · intro n hd r hr howner
        dsimp only at hd hr
        split at hd
        · cases hd
        next hne =>
        rcases List.mem_cons.1 hr with rfl | hr
        · exact Ne.symm hne
        · exact ha.undisturbed n hd r hr howner
  | openRegion name =>
    rcases hopen : h.shared.openRegion name with ⟨outcome, shared⟩
    simp only [RegionHistory.turn, hopen]
    cases outcome with
    | error e => exact ⟨ha.pairwise, ha.undisturbed⟩
    | ok region =>
      obtain ⟨-, hguest⟩ := of_openRegion hopen
      constructor
      · refine List.pairwise_cons.2 ⟨fun r _ howner => ?_, ha.pairwise⟩
        rw [hguest] at howner
        cases howner
      · intro n hd r hr howner
        rcases List.mem_cons.1 hr with rfl | hr
        · rw [hguest] at howner
          cases howner
        · exact ha.undisturbed n hd r hr howner
  | release place =>
    cases hplace : h.held[place]? with
    | none =>
      simp only [RegionHistory.turn, hplace]
      exact ha
    | some released =>
      obtain ⟨hlt, rfl⟩ := List.getElem?_eq_some_iff.1 hplace
      simp only [RegionHistory.turn, hplace]
      -- The one that is released and those that are left are all that were in use.
      obtain ⟨hothers, hleft⟩ := List.pairwise_cons.1 (((List.getElem_cons_eraseIdx_perm hlt).pairwise_iff
        fun hne howner howner' => Ne.symm (hne howner' howner)).2 ha.pairwise)
      refine ⟨hleft, fun n hd r hr howner => ?_⟩
      dsimp only at hd hr
      split at hd
      · next hself =>
        obtain ⟨hreleased, rfl⟩ := hself
        exact Ne.symm (hothers r hr hreleased howner)
      · exact ha.undisturbed n hd r (List.mem_of_mem_eraseIdx hr) howner

theorem Apart.run (ha : h.Apart) (hh : h.Sound) {turns : List RegionTurn} (hsingly : h.Singly turns) :
    (h.run turns).Apart := by
  induction turns generalizing h with
  | nil => exact ha
  | cons t turns ih => exact ih (ha.turn hh hsingly.1) (hh.turn t) hsingly.2

/-- **Where every name has one owner at a time, the owner keeps it**: whoever opens the name gets the same memory. -/
theorem openRegion_newest_of_singly (hs : s.Regular) {turns : List RegionTurn} (hsingly : Singly { shared := s } turns)
    (hnewest : (run { shared := s } turns).newest name = some region)
    (hheld : region ∈ (run { shared := s } turns).held) :
    ∃ opened, ((run { shared := s } turns).shared.openRegion name).1 = .ok opened ∧ opened.object = region.object ∧
      opened.size = region.size := by
  have hstart : Sound { shared := s } := .start hs
  have ha : (run { shared := s } turns).Apart := Apart.start.run hstart hsingly
  obtain ⟨hname, howner⟩ := (hstart.run turns).newest_eq _ _ hnewest
  obtain ⟨hopen, -⟩ := openRegion_newest hs turns hnewest
  refine ⟨_, congrArg Prod.fst (hopen ?_), rfl, rfl⟩
  cases hdisturbed : (run { shared := s } turns).disturbed name with
  | false => rfl
  | true => exact (ha.undisturbed name hdisturbed region hheld howner hname).elim

/-- **The newest owner can lose its name while it is in use.** The older owner removes it. -/
theorem newest_loses_name :
    ¬∀ (turns : List RegionTurn) (name : String) (region : Region),
      let h := run { shared := .empty } turns
      h.newest name = some region → region ∈ h.held →
        ∃ opened, (h.shared.openRegion name).1 = .ok opened ∧ opened.object = region.object := by
  intro hall
  obtain ⟨opened, hopen, -⟩ := hall [.create "desk" 64, .create "desk" 64, .release 1] "desk"
    { mapping := 1, object := 0, size := 64, name := "desk", owner := true } (by decide) (by decide)
  have hnotFound : ((run { shared := .empty } [.create "desk" 64, .create "desk" 64, .release 1]).shared.openRegion
      "desk").1 = .error (.notFound "desk") := rfl
  rw [hopen] at hnotFound
  cases hnotFound

end RegionHistory

end MediaChannels
