/-
# The turn that is picked

Whatever question names the next turn, it names one of the turns that are open, and as long as one
is open some turn is named (`exists_nextTurn`).  Nothing can go wrong on the way: players and turns
are keys, so the question for a turn apart is answered by the first open turn that is
(`apart?_eq`).
-/
import Mathlib.Data.List.Basic
import Matchday.Proofs.Keys
import Matchday.Proofs.Picks
import Matchday.Sequencer

namespace Matchday

/-! ## 1. The three questions -/

namespace NextTurn

variable {ms : List Fixture} {last : Value} {turns : List Value}

/-- Among turns of keys, the first one apart is found. -/
theorem firstApart_eq (hkey : ∀ m ∈ ms, m.home.isKey = true ∧ m.guest.isKey = true)
    (team turns : List Value) :
    firstApart team ms none turns = .ok (turns.find? (isApart team ms)) := by
  induction turns with
  | nil => rfl
  | cons t ts ih =>
    have hturn : ∀ m ∈ Schedule.ofTurn ms t, m.home.isKey = true ∧ m.guest.isKey = true :=
      fun m hm => hkey m (List.mem_of_mem_filter hm)
    rw [firstApart, allSplit_of_keys hturn, List.find?_cons]
    cases happ : isApart team ms t with
    | true =>
      rw [isApart] at happ
      rw [happ]
      rfl
    | false =>
      rw [isApart] at happ
      rw [happ]
      exact ih

/-- **The first question finds the first open turn apart from the last one.** -/
theorem apart?_eq (hkey : ∀ m ∈ ms, m.home.isKey = true ∧ m.guest.isKey = true) (last : Value)
    (turns : List Value) :
    apart? ms last turns none = .ok (turns.find? (isApart (homeTeam ms last) ms)) := by
  have hteam : ∀ p ∈ homeTeam ms last, p.isKey = true := by
    intro p hp
    obtain ⟨m, hm, rfl⟩ := List.mem_map.mp hp
    exact (hkey m (List.mem_of_mem_filter hm)).1
  rw [apart?, mapM_asKey hteam, ← firstApart_eq hkey]
  rfl

/-- A turn is open if it is a turn of the schedule and has not been placed. -/
theorem mem_openTurns {placed : List Value} {t : Value} :
    t ∈ openTurns ms placed ↔ t ∈ Schedule.turns ms ∧ ∀ u ∈ placed, (t == u) = false := by
  rw [openTurns, List.mem_filter, Bool.not_eq_true', ← Bool.not_eq_true,
    List.contains_iff_exists_mem_beq]
  constructor
  · rintro ⟨ht, hnot⟩
    exact ⟨ht, fun u hu => Bool.eq_false_iff.mpr fun htu => hnot ⟨u, hu, htu⟩⟩
  · rintro ⟨ht, hnew⟩
    refine ⟨ht, ?_⟩
    rintro ⟨u, hu, htu⟩
    rw [hnew u hu] at htu
    cases htu

theorem mem_of_mostVisiting? {t : Value} (h : mostVisiting? ms last turns = some t) :
    t ∈ turns :=
  List.mem_of_mem_filter (Pick.mem_of_greatest h)

theorem mem_of_leastCarried? {t : Value} (h : leastCarried? ms last turns = some t) :
    t ∈ turns :=
  Pick.mem_of_least h

end NextTurn

/-! ## 2. The answer -/

namespace Sequencer

/-- An answer that counts is the answer. -/
theorem eq_of_named {answer : Option Value} {t : Value} (h : named answer = some t) :
    answer = some t := by
  unfold named at h
  split at h
  · cases h
  · exact h

/-- The first of two answers that is given, or else the second, keeps to the open turns. -/
theorem mem_of_orElse {turns : List Value} {x y : Option Value}
    (hx : ∀ t, x = some t → t ∈ turns) (hy : ∀ t, y = some t → t ∈ turns) {t : Value}
    (h : (x <|> y) = some t) : t ∈ turns := by
  cases x with
  | none => exact hy t h
  | some s => exact hx t h

/-- Where the second answer is given, one of the two is. -/
theorem exists_orElse {x y : Option Value} (hy : ∃ t, y = some t) : ∃ t, (x <|> y) = some t := by
  cases x with
  | none => exact hy
  | some s => exact ⟨s, rfl⟩

/-- **The three questions in turn**, and the first open turn if none of them is answered. -/
theorem nextTurn?_eq {s : Sequencer}
    (hkey : ∀ m ∈ s.working.fixtures, m.home.isKey = true ∧ m.guest.isKey = true) (last : Value) :
    let ms := s.working.fixtures
    let turns := NextTurn.openTurns ms s.placed
    s.nextTurn? last = .ok
      (named (if s.prefersApart then turns.find? (NextTurn.isApart (NextTurn.homeTeam ms last) ms)
          else none) <|>
        named (NextTurn.mostVisiting? ms last turns) <|>
        named (NextTurn.leastCarried? ms last turns) <|> turns.head?) := by
  intro ms turns
  unfold nextTurn?
  cases s.prefersApart with
  | true =>
    have happart := NextTurn.apart?_eq hkey last turns
    simp only [if_true]
    rw [happart]
    rfl
  | false => rfl

/-- **The turn that is picked is open.** -/
theorem mem_openTurns_of_nextTurn? {s : Sequencer}
    (hkey : ∀ m ∈ s.working.fixtures, m.home.isKey = true ∧ m.guest.isKey = true) {last t : Value}
    (h : s.nextTurn? last = .ok (some t)) :
    t ∈ NextTurn.openTurns s.working.fixtures s.placed := by
  rw [nextTurn?_eq hkey last] at h
  generalize NextTurn.openTurns s.working.fixtures s.placed = turns at h ⊢
  refine mem_of_orElse (fun t h => ?_) (fun t h => ?_) (Except.ok.inj h)
  · have h := eq_of_named h
    split at h
    · exact List.mem_of_find?_eq_some h
    · cases h
  refine mem_of_orElse (fun t h => NextTurn.mem_of_mostVisiting? (eq_of_named h)) (fun t h => ?_) h
  exact mem_of_orElse (fun t h => NextTurn.mem_of_leastCarried? (eq_of_named h))
    (fun t h => List.mem_of_mem_head? (Option.mem_def.mpr h)) h

/-- **As long as a turn is open, an open turn is picked.** -/
theorem exists_nextTurn {s : Sequencer} (last : Value)
    (hkey : ∀ m ∈ s.working.fixtures, m.home.isKey = true ∧ m.guest.isKey = true)
    (hopen : NextTurn.openTurns s.working.fixtures s.placed ≠ []) :
    ∃ t ∈ NextTurn.openTurns s.working.fixtures s.placed, s.nextTurn? last = .ok (some t) := by
  have hhead : ∃ t, (NextTurn.openTurns s.working.fixtures s.placed).head? = some t :=
    ⟨_, List.head?_eq_some_head hopen⟩
  obtain ⟨t, ht⟩ : ∃ t, s.nextTurn? last = .ok (some t) := by
    rw [nextTurn?_eq hkey last]
    obtain ⟨t, ht⟩ := exists_orElse (x := named _) (exists_orElse (x := named _)
      (exists_orElse (x := named _) hhead))
    exact ⟨t, congrArg Except.ok ht⟩
  exact ⟨t, mem_openTurns_of_nextTurn? hkey ht, ht⟩

end Sequencer
end Matchday
