import Mathlib.Data.List.Basic

/-! What a successful run of a fallible computation says about its parts. -/

namespace Outcome

variable {ε ε' α β : Type} {compute : α → Except ε β} {items : List α} {results : List β}
  {result : β} {value item : α} {computation : Except ε α} {next : α → Except ε β}
  {first : Except ε α}

theorem bind_eq_ok :
    (first >>= next) = .ok result ↔ ∃ value, first = .ok value ∧ next value = .ok result := by
  cases first with
  | error failure =>
    constructor
    · intro failed
      cases failed
    · rintro ⟨_, failed, _⟩
      cases failed
  | ok value =>
    constructor
    · intro done
      exact ⟨value, rfl, done⟩
    · rintro ⟨_, ⟨⟩, done⟩
      exact done

theorem pure_eq_ok {result : α} : (pure value : Except ε α) = .ok result ↔ value = result := by
  constructor
  · intro done
    cases done
    rfl
  · rintro rfl
    rfl

theorem map_eq_ok {next : α → β} :
    computation.map next = .ok result ↔ ∃ value, computation = .ok value ∧ next value = result := by
  cases computation with
  | error failure =>
    constructor
    · intro failed
      cases failed
    · rintro ⟨_, failed, _⟩
      cases failed
  | ok value =>
    constructor
    · intro done
      exact ⟨value, rfl, Except.ok.inj done⟩
    · rintro ⟨_, ⟨⟩, done⟩
      exact congrArg Except.ok done

theorem mapError_eq_ok {rename : ε → ε'} {result : α} :
    computation.mapError rename = .ok result ↔ computation = .ok result := by
  cases computation with
  | error failure =>
    constructor
    · intro failed
      cases failed
    · intro failed
      cases failed
  | ok value =>
    show Except.ok value = .ok result ↔ _
    simp

theorem ite_eq_ok {P : Prop} [Decidable P] {failure : ε} {result : α} :
    (if P then .ok value else .error failure : Except ε α) = .ok result ↔ P ∧ value = result := by
  by_cases holds : P
  · simp [holds]
  · simp [holds]

theorem exists_some_of_map {compute : α → Option β} (done : items.map compute = results.map some)
    (mem : item ∈ items) : ∃ result, compute item = some result := by
  have computed := List.mem_map_of_mem (f := compute) mem
  rw [done] at computed
  obtain ⟨result, -, same⟩ := List.mem_map.mp computed
  exact ⟨result, same.symm⟩

theorem map_of_mapM {δ : Type} {before : α → δ} {after : β → δ}
    (kept : ∀ item result, compute item = .ok result → after result = before item)
    (done : items.mapM compute = .ok results) : results.map after = items.map before := by
  induction items generalizing results with
  | nil =>
    obtain rfl := pure_eq_ok.mp done
    rfl
  | cons first rest ih =>
    rw [List.mapM_cons] at done
    obtain ⟨result, computed, done⟩ := bind_eq_ok.mp done
    obtain ⟨others, loop, done⟩ := bind_eq_ok.mp done
    obtain rfl := pure_eq_ok.mp done
    rw [List.map_cons, List.map_cons, kept first result computed, ih loop]

theorem exists_of_mapM (done : items.mapM compute = .ok results) (mem : item ∈ items) :
    ∃ result ∈ results, compute item = .ok result := by
  have computed := List.mem_map_of_mem (f := compute) mem
  rw [← map_of_mapM (fun _ _ computed => computed.symm) done] at computed
  obtain ⟨result, isResult, same⟩ := List.mem_map.mp computed
  exact ⟨result, isResult, same.symm⟩

/-- A loop that looks every entry up in a list finds an item for each. -/
theorem passed_of_lookups {γ π : Type} {entries : List (Nat × π)} {found : List γ} {missing : ε}
    {lookups : Nat × π → Except ε β} {P : β → Prop} (make : γ → Nat → π → β)
    (looks : ∀ entry, lookups entry = match found[entry.1]? with
      | none => .error missing
      | some item => .ok (make item entry.1 entry.2))
    (done : entries.mapM lookups = .ok results) (passed : ∀ result ∈ results, P result) :
    ∀ entry ∈ entries, ∃ item, found[entry.1]? = some item ∧ P (make item entry.1 entry.2) := by
  intro entry mem
  obtain ⟨result, isResult, computed⟩ := exists_of_mapM done mem
  rw [looks] at computed
  split at computed
  case h_1 => cases computed
  case h_2 item there =>
    obtain rfl := Except.ok.inj computed
    exact ⟨item, there, passed _ isResult⟩

/-- A loop of checks that ends well has checked every item. -/
theorem passed_of_loop {check : α → Except ε Unit} {loop : List α → Except ε Unit}
    (step : ∀ first rest, loop (first :: rest) = do check first; loop rest)
    (passed : loop items = .ok ()) : ∀ item ∈ items, check item = .ok () := by
  induction items with
  | nil => simp
  | cons first rest ih =>
    rw [step] at passed
    obtain ⟨_, own, others⟩ := bind_eq_ok.mp passed
    exact List.forall_mem_cons.mpr ⟨own, ih others⟩

end Outcome
