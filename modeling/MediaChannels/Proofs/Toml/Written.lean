import MediaChannels.Proofs.Toml.Addresses
import MediaChannels.Toml.Document

/-!
# Values of texts

In the values that are read from a text no array of headers is seen, and integers have 64 bits.

* `Rewrites.written`: rewriting with such values keeps to them.
* `value?_written`, `Document.ofText?_written`: the values of a text, and those of a document.
-/

namespace MediaChannels.Toml

/-- What is seen in values that a text can denote. -/
def Mark.Written : Mark → Prop
  | .scalar (.integer n) => Int64.minValue.toInt ≤ n ∧ n ≤ Int64.maxValue.toInt
  | .scalar _ => True
  | .elements _ => False

/-- Nothing else is seen. -/
def View.Written (view : View) : Prop := ∀ address mark, view address = some mark → mark.Written

/-- A document in which nothing else is seen. -/
structure Document.Written (d : Document) : Prop where
  assignments : ∀ a ∈ d.assignments, a.value.seen.Written
  sections : ∀ sec ∈ d.sections, ∀ a ∈ sec.assignments, a.value.seen.Written

variable {s r : List Char} {v : Value}

theorem View.Written.not_elements {view : View} (h : view.Written) (address : Address) (n : Nat) :
    view address ≠ some (.elements n) := h address _

theorem Rewrites.written {earlier later old new : View} {place : Address} (h : Rewrites earlier later place old new)
    (hearlier : earlier.Written) (hnew : new.Written) : later.Written := by
  intro address mark hmark
  by_cases hplace : place <+: address
  · obtain ⟨rest, rfl⟩ := hplace
    rw [h.after] at hmark
    exact hnew rest mark hmark
  · rw [h.others address hplace] at hmark
    exact hearlier address mark hmark

/-! ## Words, arrays and inline tables -/

/-- A value that is seen as itself has no parts. -/
theorem child?_eq_none (h : v.mark? = some (.scalar v)) (step : Step) : v.child? step = none := by
  cases v with
  | array | table => cases h
  | tables elements => cases elements <;> cases h
  | _ => cases step <;> rfl

theorem written_of_scalar (hv : (Mark.scalar v).Written) (h : v.mark? = some (.scalar v)) : v.seen.Written := by
  intro address mark hseen
  cases address with
  | nil =>
    rw [Value.seen, h] at hseen
    cases hseen
    exact hv
  | cons step rest =>
    rw [Value.seen, child?_eq_none h] at hseen
    cases hseen

theorem array_written {items : List Value} (h : ∀ v ∈ items, v.seen.Written) : (Value.array items).seen.Written := by
  intro address mark hseen
  cases address with
  | nil => cases hseen
  | cons step rest =>
    cases step with
    | key => cases hseen
    | item index =>
      obtain ⟨v, hv, hrest⟩ := Option.bind_eq_some_iff.1 hseen
      exact h v (List.mem_of_getElem? hv) rest mark hrest

theorem ofWord?_written {word : List Char} (h : Value.ofWord? word = some v) : v.seen.Written := by
  unfold Value.ofWord? at h
  split at h
  · cases h
    exact written_of_scalar trivial rfl
  split at h
  · cases h
    exact written_of_scalar trivial rfl
  split at h
  · cases h
    exact written_of_scalar trivial rfl
  split at h
  · cases h
    exact written_of_scalar trivial rfl
  · obtain ⟨n, hn, rfl⟩ := Option.map_eq_some_iff.1 h
    exact written_of_scalar (integer?_bounds hn) rfl

theorem word?_written (h : Value.word? s = some (v, r)) : v.seen.Written := by
  unfold Value.word? at h
  dsimp only [HOrElse.hOrElse, OrElse.orElse] at h
  rw [Option.orElse_eq_or, Option.or_eq_some_iff] at h
  rcases h with h | ⟨-, h⟩
  · split at h
    · split at h
      · cases h
        exact written_of_scalar trivial rfl
      · cases h
    · cases h
  · obtain ⟨v, hv, heq⟩ := Option.map_eq_some_iff.1 h
    cases heq
    exact ofWord?_written hv

section Items

variable {item : List Char → Option (Value × List Char)}
  (hitem : ∀ {s v r}, item s = some (v, r) → v.seen.Written)

include hitem

theorem items?_written {items : List Value} (h : items? item s = some (items, r)) : ∀ v ∈ items, v.seen.Written := by
  fun_induction items? item s generalizing items r with
  | case2 =>
    cases h
    simp
  | case4 s t _ _ v _ hv more _ _ ih =>
    obtain ⟨⟨values, rest⟩, hmore, heq⟩ := Option.map_eq_some_iff.1 h
    cases heq
    intro w hw
    rcases List.mem_cons.1 hw with rfl | hw
    · exact hitem hv
    · exact ih hmore w hw
  | case6 s t _ _ v _ hv =>
    cases h
    intro w hw
    cases List.mem_singleton.1 hw
    exact hitem hv
  | _ => cases h

theorem inlineEntries?_written {es es' : Entries} (hes : es.seen.Written)
    (h : inlineEntries? item es s = some (es', r)) : es'.seen.Written := by
  fun_induction inlineEntries? item es s with
  | case2 es s path t _ v u hv middle more _ hassign _ ih =>
    obtain ⟨steps, hr, -⟩ := Entries.assign_rewrites hassign
    exact ih (hr.written hes (hitem hv)) h
  | case4 es s path t _ v u hv middle more _ hassign =>
    cases h
    obtain ⟨steps, hr, -⟩ := Entries.assign_rewrites hassign
    exact hr.written hes (hitem hv)
  | _ => cases h

end Items

theorem quoted_written (h : (quoted? s).map (fun (cs, r) => (Value.text (String.ofList cs), r)) = some (v, r)) :
    v.seen.Written := by
  obtain ⟨⟨cs, rest⟩, -, heq⟩ := Option.map_eq_some_iff.1 h
  cases heq
  exact written_of_scalar trivial rfl

theorem value?_written {room : Nat} (h : value? room s = some (v, r)) : v.seen.Written := by
  induction room generalizing s v r with
  | zero =>
    unfold value? at h
    split at h
    · exact quoted_written h
    · exact quoted_written h
    · cases h
    · cases h
    · exact word?_written h
  | succ room ih =>
    unfold value? at h
    split at h
    · exact quoted_written h
    · exact quoted_written h
    · obtain ⟨⟨items, rest⟩, hitems, heq⟩ := Option.map_eq_some_iff.1 h
      cases heq
      exact array_written (items?_written ih hitems)
    · dsimp only at h
      split at h
      · cases h
        intro address mark hmark
        simp at hmark
      · obtain ⟨⟨es, rest⟩, hes, heq⟩ := Option.map_eq_some_iff.1 h
        cases heq
        rw [funext (Value.seen_table .inline es)]
        exact inlineEntries?_written ih (fun address mark hmark => by simp at hmark) hes
    · exact word?_written h

/-! ## Documents -/

/-- A statement with such a value, if it has one. -/
def Statement.Written : Statement → Prop
  | .assign a => a.value.seen.Written
  | .header _ => True

theorem header?_written {element : Bool} {statement : Statement} (h : header? element s = some (statement, r)) :
    statement.Written := by
  unfold header? at h
  split at h
  · split at h
    · obtain ⟨rest, -, heq⟩ := Option.map_eq_some_iff.1 h
      cases heq
      trivial
    · obtain ⟨rest, -, heq⟩ := Option.map_eq_some_iff.1 h
      cases heq
      trivial
    · cases h
  · cases h

theorem statement?_written {statement : Statement} (h : statement? s = some (statement, r)) : statement.Written := by
  unfold statement? at h
  split at h
  · exact header?_written h
  · exact header?_written h
  · unfold assignment? at h
    split at h
    · split at h
      · next hv =>
        obtain ⟨rest, -, heq⟩ := Option.map_eq_some_iff.1 h
        cases heq
        exact value?_written hv
      · cases h
    · cases h

theorem statements?_written {statements : List Statement} (h : statements? s = some statements) :
    ∀ statement ∈ statements, statement.Written := by
  fun_induction statements? s generalizing statements with
  | case1 =>
    cases h
    simp
  | case2 s c t _ _ rest _ _ ih => exact ih h
  | case5 s c t _ _ statement rest hstatement _ ih =>
    obtain ⟨more, hmore, rfl⟩ := Option.map_eq_some_iff.1 h
    exact List.forall_mem_cons.2 ⟨statement?_written hstatement, ih hmore⟩
  | _ => cases h

theorem ofStatements_written {statements : List Statement} (h : ∀ statement ∈ statements, statement.Written) :
    (Document.ofStatements statements).Written := by
  induction statements with
  | nil => exact ⟨by simp [Document.ofStatements], by simp [Document.ofStatements]⟩
  | cons statement r ih =>
    rw [List.forall_mem_cons] at h
    obtain ⟨hfirst, hr⟩ := h
    cases statement with
    | assign a => exact ⟨List.forall_mem_cons.2 ⟨hfirst, (ih hr).assignments⟩, (ih hr).sections⟩
    | header header =>
      exact ⟨by simp [Document.ofStatements], List.forall_mem_cons.2 ⟨(ih hr).assignments, (ih hr).sections⟩⟩

/-- All values of a document that is read from a text are such. -/
theorem Document.ofText?_written {d : Document} (h : ofText? s = some d) : d.Written := by
  obtain ⟨statements, hs, rfl⟩ := Option.map_eq_some_iff.1 h
  exact ofStatements_written (statements?_written hs)

end MediaChannels.Toml
