/-
# Referees for one match after the other

The rule for another referee speaks about a session, in which referees are asked for one match
after the other.  Whoever does not play may go on duty, but not the one who was on duty last, as
long as somebody else is free (`MayGo`).  Of those with the fewest duties so far the one listed
first goes (`GoesNext`).

A rota remembers exactly the referees it has given (`run_assign`): a request that fails, because
nobody is free or because a row is no match, leaves it as it was.  So at every point of a session
the rota knows what the rule speaks about, and it answers by the rule with the one it takes for the
last on duty (`goesNext_of_pick?`).

Before the first duty there is no last one, but the rota takes the value `none` for it
(`lastOnDuty`), and `none` may be listed like any other referee.  Then it is passed over though it
never was on duty.  `goesNext_iff` says that this is the only departure from the rule, and
`none_is_passed_over` is the smallest case.
-/
import Matchday.Proofs.Rota.Duties

namespace Matchday.Rota

/-! ## 1. The rule -/

/-- **Who may go on duty for a match**: somebody listed who does not play, and who was not on duty
last unless nobody else is free. -/
structure MayGo (refs : List Value) (last : Option Value) (m : Fixture) (v : Value) : Prop where
  listed : v ∈ refs
  free : m.hasPlayer v = false
  rested : ∀ u, last = some u →
    (∃ x ∈ refs, m.hasPlayer x = false ∧ equals x u = false) → equals v u = false

/-- **The rule**: of those who may go with the fewest duties, the one listed first. -/
def GoesNext (refs history : List Value) (last : Option Value) (m : Fixture) (v : Value) : Prop :=
  Pick.IsFirst (fun v => MayGo refs last m v ∧
    ∀ x, MayGo refs last m x → history.count v ≤ history.count x) refs v

/-- Before the first duty, `none` is the first of those who are free, and somebody else is free as
well. -/
structure PassesOverNone (refs history : List Value) (m : Fixture) : Prop where
  fresh : history = []
  first : Pick.IsFirst (m.hasPlayer · = false) refs .none
  other : ∃ x ∈ refs, m.hasPlayer x = false ∧ equals x Value.none = false

/-- The referees that some requests were given. -/
def given (outcomes : List (Outcome Value)) : List Value := outcomes.filterMap (·.result.toOption)

/-! ## 2. Who is picked -/

section Rule

variable {refs history assigned cs : List Value} {last : Option Value} {m : Fixture} {v : Value}

theorem mem_free_iff : v ∈ free refs m.home m.guest ↔ v ∈ refs ∧ m.hasPlayer v = false := by
  rw [mem_free, Match.hasPlayer, Bool.or_eq_false_iff, equals_comm v, equals_comm v]

/-- Nobody is free just when all who are listed play. -/
theorem free_eq_nil_iff :
    free refs m.home m.guest = [] ↔ ∀ x ∈ refs, m.hasPlayer x = true := by
  rw [List.eq_nil_iff_forall_not_mem]
  refine forall_congr' fun x => ?_
  rw [mem_free_iff, not_and, Bool.not_eq_false]

/-- Rested is everybody but the one on duty last, who is if nobody else is there. -/
theorem mem_rested_iff :
    v ∈ rested assigned cs ↔ v ∈ cs ∧
      ((∃ x ∈ cs, equals x (lastOnDuty assigned) = false) →
        equals v (lastOnDuty assigned) = false) := by
  constructor
  · intro hv
    refine ⟨mem_of_mem_rested hv, ?_⟩
    rintro ⟨x, hx, hlast⟩
    exact ne_last_of_mem_rested hx hlast hv
  · rintro ⟨hv, hother⟩
    by_cases hlast : equals v (lastOnDuty assigned) = false
    · exact mem_rested hv hlast
    · have hnobody : cs.filter (!equals · (lastOnDuty assigned)) = [] := by
        refine List.filter_eq_nil_iff.mpr fun x hx hne => hlast (hother ⟨x, hx, ?_⟩)
        simpa using hne
      unfold rested
      dsimp only
      rw [hnobody]
      exact hv

/-- **Who is free and rested may go.** -/
theorem mem_rested_free_iff :
    v ∈ rested assigned (free refs m.home m.guest)
      ↔ MayGo refs (some (lastOnDuty assigned)) m v := by
  simp only [mem_rested_iff, mem_free_iff, and_assoc]
  constructor
  · rintro ⟨hv, hfree, hrested⟩
    refine ⟨hv, hfree, fun u hu => ?_⟩
    cases hu
    exact hrested
  · exact fun h => ⟨h.listed, h.free, h.rested _ rfl⟩

/-- Those who are free and rested stand as they are listed. -/
theorem exists_rested_eq_filter (refs assigned : List Value) (home guest : Value) :
    ∃ q : Value → Bool, rested assigned (free refs home guest) = refs.filter q := by
  unfold rested free
  dsimp only
  split
  · exact ⟨_, rfl⟩
  · exact ⟨_, List.filter_filter⟩

/-- **Who is picked goes by the rule**, with the one that the rota takes for the last on duty. -/
theorem goesNext_of_pick? (h : pick? refs history m.home m.guest = some v) :
    GoesNext refs history (some (lastOnDuty history)) m v := by
  obtain ⟨q, hq⟩ := exists_rested_eq_filter refs history m.home m.guest
  have hmay : ∀ y, y ∈ refs.filter q ↔ MayGo refs (some (lastOnDuty history)) m y := by
    intro y
    rw [← hq, mem_rested_free_iff]
  have hfirst := Pick.least_eq_some_iff.mp h
  rw [hq, Pick.isFirst_filter_iff] at hfirst
  refine hfirst.congr fun x hx => ?_
  have hqx : q x = true ↔ MayGo refs (some (lastOnDuty history)) m x := by
    rw [← hmay, List.mem_filter, and_iff_right hx]
  simp only [hqx, hmay]

/-- Before the first duty nobody has more duties than others. -/
theorem goesNext_nil_iff :
    GoesNext refs [] last m v ↔ Pick.IsFirst (MayGo refs last m) refs v := by
  unfold GoesNext
  simp only [List.count_nil, Nat.le_refl, implies_true, and_true]

/-- By the rule, the first one free has the first duty. -/
theorem goesNext_first_iff :
    GoesNext refs [] none m v ↔ Pick.IsFirst (m.hasPlayer · = false) refs v := by
  rw [goesNext_nil_iff]
  exact Pick.isFirst_congr fun x hx =>
    ⟨fun h => h.free, fun h => ⟨hx, h, fun _ hlast => nomatch hlast⟩⟩

/-- Unless `none` is passed over, a rota gives the first duty to the first one free as well. -/
theorem goesNext_first_of_not_passesOverNone (h : GoesNext refs [] (some .none) m v)
    (hnot : ¬ PassesOverNone refs [] m) : GoesNext refs [] none m v := by
  rw [goesNext_nil_iff] at h
  rw [goesNext_first_iff]
  obtain ⟨w, hw⟩ := Pick.exists_isFirst (P := (m.hasPlayer · = false))
    ⟨v, h.mem.1, h.mem.2.free⟩
  have hmay : MayGo refs (some .none) m w := by
    refine ⟨hw.mem.1, hw.mem.2, fun u hu hother => ?_⟩
    cases hu
    by_contra hnone
    obtain rfl := Value.beq_none_iff.mp (beq_of_equals (Bool.of_not_eq_false hnone))
    exact hnot ⟨rfl, hw, hother⟩
  have hfirst : Pick.IsFirst (MayGo refs (some .none) m) refs w := by
    obtain ⟨before, after, hrefs, -, hbefore⟩ := hw
    exact ⟨before, after, hrefs, hmay, fun y hy hmay => hbefore y hy hmay.free⟩
  rwa [h.unique hfirst]

/-- **When a rota keeps to the rule**: always, unless it passes over `none` for the first duty. -/
theorem goesNext_iff (h : GoesNext refs history (some (lastOnDuty history)) m v) :
    GoesNext refs history history.getLast? m v ↔ ¬ PassesOverNone refs history m := by
  rcases List.eq_nil_or_concat history with rfl | ⟨us, u, rfl⟩
  · refine ⟨?_, goesNext_first_of_not_passesOverNone h⟩
    rintro hrule ⟨-, hnone, hother⟩
    -- the first one free is `none`, and the rota lets it rest
    have hrested := (goesNext_nil_iff.mp h).mem.2.rested _ rfl hother
    rw [(goesNext_first_iff.mp hrule).unique hnone] at hrested
    exact Bool.noConfusion hrested
  · rw [List.concat_eq_append] at *
    rw [lastOnDuty_concat] at h
    rw [List.getLast?_concat, iff_true_intro h, true_iff]
    rintro ⟨hnil, -, -⟩
    exact List.append_ne_nil_of_right_ne_nil _ (List.cons_ne_nil u []) hnil

end Rule

/-! ## 3. What a rota remembers -/

/-- The first request comes first. -/
theorem given_cons (x : Outcome Value) (xs : List (Outcome Value)) :
    given (x :: xs) = given [x] ++ given xs :=
  List.filterMap_append (l := [x])

section Requests

variable (refs assigned : List Value)

/-- What a request comes to: a fault if the row is no match, a rejection if nobody is free, and
otherwise the referee that is picked, who is remembered. -/
theorem assign_other (row : Row) :
    assign row ⟨some .other, refs, assigned⟩ =
      match row.fixture with
      | .error e => (Outcome.fail e, ⟨some .other, refs, assigned⟩)
      | .ok m =>
        match pick? refs assigned m.home m.guest with
        | none => (Outcome.reject (.nobodyFree m.home m.guest), ⟨some .other, refs, assigned⟩)
        | some v => (Outcome.ok v, ⟨some .other, refs, assigned ++ [v]⟩) := by
  rw [assign, Action.bind_apply, Action.state_apply]
  dsimp only
  rw [Action.bind_apply, Action.lift_apply, Outcome.ofExcept]
  cases row.fixture with
  | error e => rfl
  | ok m =>
    dsimp only
    rw [assignOther, Action.bind_apply, Action.state_apply]
    dsimp only
    cases pick? refs assigned m.home m.guest <;> rfl

/-- **A request that gives a referee adds this one**, and any other leaves the rota as it is. -/
theorem assign_remembers (row : Row) :
    (assign row ⟨some .other, refs, assigned⟩).2 =
      ⟨some .other, refs, assigned ++ given [(assign row ⟨some .other, refs, assigned⟩).1]⟩ := by
  have hsame : (⟨some .other, refs, assigned⟩ : Rota) = ⟨some .other, refs, assigned ++ []⟩ := by
    rw [List.append_nil]
  rw [assign_other]
  cases row.fixture with
  | error e => exact hsame
  | ok m =>
    dsimp only
    cases pick? refs assigned m.home m.guest with
    | none => exact hsame
    | some v => rfl

/-- **A rota remembers the referees it has given**, in their order. -/
theorem run_assign (rows : List Row) :
    (Session.run assign rows ⟨some .other, refs, assigned⟩).2 = ⟨some .other, refs,
      assigned ++ given (Session.run assign rows ⟨some .other, refs, assigned⟩).1⟩ := by
  induction rows generalizing assigned with
  | nil => exact congrArg (Rota.mk _ _) (List.append_nil assigned).symm
  | cons row rows ih =>
    rw [Session.run]
    dsimp only
    rw [assign_remembers, ih, List.append_assoc, ← given_cons]

end Requests

/-! ## 4. Sessions -/

/-- **What a rota for another referee answers at any point of a session.**  A match is turned away
just when everybody listed plays in it, and then the rota stays as it was.  Otherwise somebody is
given by the rule with the one that the rota takes for the last on duty, which is the rule itself
unless `none` is passed over. -/
theorem session_follows (refs : List Value) :
    ∃ r, (create (some .other) (some (.value (.list refs)))).result = .ok r ∧
      ∀ (before : List Row) (m : Fixture),
        let (outcomes, rota) := Session.run assign before r
        let history := given outcomes
        rota = ⟨some .other, refs, history⟩ ∧
        ((∀ x ∈ refs, m.hasPlayer x = true) →
          assign (Row.ofFixture m) rota = (Outcome.reject (.nobodyFree m.home m.guest), rota)) ∧
        ((∃ x ∈ refs, m.hasPlayer x = false) →
          ∃ v, assign (Row.ofFixture m) rota = (Outcome.ok v, onDuty v rota) ∧
            GoesNext refs history (some (lastOnDuty history)) m v ∧
            (GoesNext refs history history.getLast? m v ↔ ¬ PassesOverNone refs history m)) := by
  refine ⟨⟨some .other, refs, []⟩, rfl, fun before m => ?_⟩
  have hrota := run_assign refs [] before
  generalize Session.run assign before ⟨some .other, refs, []⟩ = session at hrota ⊢
  obtain ⟨outcomes, rota⟩ := session
  obtain rfl : rota = ⟨some .other, refs, given outcomes⟩ := hrota
  dsimp only
  rw [assign_other, Row.fixture_ofFixture]
  dsimp only
  refine ⟨rfl, fun hall => ?_, ?_⟩
  · rw [(pick?_eq_none_iff ..).mpr (free_eq_nil_iff.mpr hall)]
  · rintro ⟨x, hx, hfree⟩
    cases hpick : pick? refs (given outcomes) m.home m.guest with
    | none =>
      have hplays := free_eq_nil_iff.mp ((pick?_eq_none_iff ..).mp hpick) x hx
      rw [hfree] at hplays
      exact Bool.noConfusion hplays
    | some v => exact ⟨v, rfl, goesNext_of_pick? hpick, goesNext_iff (goesNext_of_pick? hpick)⟩

/-- **A referee who was not on duty is passed over**: `none` is listed first and free, the rule
gives it the first match, and the rota gives the other referee. -/
theorem none_is_passed_over :
    let refs : List Value := [.none, .int 3]
    let m : Fixture := ⟨.int 1, .int 1, .int 2⟩
    (∃ r, (create (some .other) (some (.value (.list refs)))).result = .ok r ∧
      (assign (Row.ofFixture m) r).1 = Outcome.ok (.int 3)) ∧
    GoesNext refs [] none m .none ∧ ¬ GoesNext refs [] none m (.int 3) := by
  intro refs m
  have hfirst : GoesNext refs [] none m .none :=
    goesNext_first_iff.mpr ⟨[], [.int 3], rfl, rfl, fun y hy => absurd hy List.not_mem_nil⟩
  refine ⟨⟨_, rfl, by rfl⟩, hfirst, fun hother => ?_⟩
  cases hfirst.unique hother

end Matchday.Rota
