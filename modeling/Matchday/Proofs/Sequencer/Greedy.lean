/-
# The order is greedy

Which turn follows the last one is told by a rule about two things only (`NextTurn.Follows`): who
was at home in the last turn as it was placed, and the schedule as it was given.  The program asks
its working copy instead.  But turns that are open have not been touched there
(`Underway.ofTurn_open`), and those who are at home in the last turn there are at home in the result
(`Underway.wasHome_eq`).  So what its questions pick is what the rule says
(`Underway.follows_of_nextTurn?`), and the third one has an answer as long as a turn is open.

A turn that is placed stays as it is.  So the rule still holds of every turn when the order is
complete (`sequence_follows`).
-/
import Matchday.Proofs.Sequencer.Steps

namespace Matchday

/-! ## 1. The rule -/

namespace NextTurn

/-- The player was at home in the turn. -/
def wasHome (ns : List Fixture) (t p : Value) : Bool :=
  ns.any fun n => equals n.turn t && n.home == p

section Rule

variable (home : Value → Bool) (ms : List Fixture)

/-- Each match of the turn has exactly one player of those in question. -/
def StandsApart (t : Value) : Prop := ∀ m ∈ Schedule.ofTurn ms t, home m.home = !home m.guest

/-- How many guests of the turn are among those in question. -/
def visits (t : Value) : Nat := (Schedule.ofTurn ms t).countP fun m => home m.guest

/-- **The rule for the turn that follows the last one**, by those who were at home then.  It is the
first open turn that stands apart, if such turns are preferred and there is one; or else the first
of those with the most visits, if any turn has some; or else the one that continues the fewest
streaks. -/
inductive Follows (prefersApart : Bool) (opens : List Value) (last u : Value) : Prop where
  | apart (hon : prefersApart = true) (hfirst : Pick.IsFirst (StandsApart home ms) opens u)
  | visiting (hnone : prefersApart = true → ∀ v ∈ opens, ¬ StandsApart home ms v)
      (hsome : 0 < visits home ms u) (hmost : Pick.IsFirstGreatest (visits home ms) opens u)
  | carried (hnone : prefersApart = true → ∀ v ∈ opens, ¬ StandsApart home ms v)
      (hzero : ∀ v ∈ opens, visits home ms v = 0) (hleast : leastCarried? ms last opens = some u)

end Rule

/-! ## 2. What the questions depend on -/

section Questions

variable {ms ns : List Fixture} {team : List Value} {home : Value → Bool} {t : Value}

/-- The program asks whether a turn stands apart. -/
theorem isApart_iff (hturn : Schedule.ofTurn ns t = Schedule.ofTurn ms t)
    (hhome : ∀ p, team.contains p = home p) : isApart team ns t = true ↔ StandsApart home ms t := by
  rw [isApart, hturn, List.all_eq_true]
  refine forall₂_congr fun m _ => ?_
  rw [splits, hhome, hhome, bne_iff_ne, Bool.eq_not]

/-- The program counts visits. -/
theorem visiting_eq (hturn : Schedule.ofTurn ns t = Schedule.ofTurn ms t)
    (hhome : ∀ p, team.contains p = home p) : visiting team ns t = visits home ms t := by
  rw [visiting, visits, hturn]
  exact List.countP_congr fun m _ => by rw [hhome]

/-- It does not matter in which order players are gone through. -/
theorem carried_perm {ps qs : List Value} (h : ps.Perm qs) (ms : List Fixture) (t : Value) :
    carried ps ms t = carried qs ms t := by
  unfold carried
  induction h with
  | nil => rfl
  | cons p _ ih => rw [List.foldr_cons, List.foldr_cons, ih]
  | swap p q ps =>
    simp only [List.foldr_cons]
    omega
  | trans _ _ ih ih' => exact ih.trans ih'

/-- Whoever is at home, the same players are present. -/
theorem present_perm (h : Turned ms ns) (t : Value) : (present ns t).Perm (present ms t) := by
  have hturn := h.ofTurn t
  unfold present
  generalize Schedule.ofTurn ms t = ms', Schedule.ofTurn ns t = ns' at hturn ⊢
  induction hturn with
  | nil => exact List.Perm.refl []
  | @cons m n ms' ns' hmn _ ih =>
    -- the two players of the first match may be taken to the front
    have hfront : ∀ (m : Fixture) (ms : List Fixture),
        ((m :: ms).map (·.home) ++ (m :: ms).map (·.guest)).Perm
          (m.guest :: m.home :: (ms.map (·.home) ++ ms.map (·.guest))) :=
      fun m ms => List.perm_middle
    refine (hfront n ns').trans (List.Perm.trans ?_ (hfront m ms').symm)
    rcases hmn with rfl | rfl
    · exact (ih.cons _).cons _
    · exact (List.Perm.swap _ _ _).trans ((ih.cons _).cons _)

end Questions

end NextTurn

/-! ## 3. Steps -/

namespace Sequencer

open NextTurn

variable {ps : List Value} {ms : List Fixture} {s : Sequencer} {last t : Value}

/-- **Who is at home in a turn that is placed was at home as it was placed.** -/
theorem Underway.wasHome_eq (h : Underway ps ms s) (hlast : last ∈ s.placed) (p : Value) :
    (homeTeam s.working.fixtures last).contains p = wasHome s.result last p := by
  rw [Bool.eq_iff_iff, List.contains_iff_exists_mem_beq, wasHome, List.any_eq_true, h.result]
  constructor
  · rintro ⟨q, hq, hpq⟩
    obtain ⟨n, hn, rfl⟩ := List.mem_map.mp hq
    refine ⟨n, List.mem_flatMap.mpr ⟨last, hlast, hn⟩, ?_⟩
    rw [(List.mem_filter.mp hn).2, Bool.true_and]
    exact BEq.symm hpq
  · rintro ⟨n, hn, hlastp⟩
    obtain ⟨hturn, hhome⟩ := Bool.and_eq_true_iff.mp hlastp
    obtain ⟨u, -, hn⟩ := List.mem_flatMap.mp hn
    have hn : n ∈ Schedule.ofTurn s.working.fixtures last :=
      List.mem_filter.mpr ⟨(List.mem_filter.mp hn).1, hturn⟩
    exact ⟨n.home, List.mem_map_of_mem hn, BEq.symm hhome⟩

/-- The third question may be asked about the schedule as it was given. -/
theorem Underway.leastCarried?_eq (h : Underway ps ms s) (last : Value) :
    leastCarried? s.working.fixtures last (openTurns ms s.placed)
      = leastCarried? ms last (openTurns ms s.placed) := by
  refine Pick.least_congr fun t ht => ?_
  rw [carried_perm (present_perm h.turned.turned last), carried,
    h.ofTurn_open (mem_openTurns.mp ht).2, carried]

/-- An answer that names a turn counts. -/
theorem named_eq {answer : Option Value} (h : ∀ t, answer = some t → t ≠ .none) :
    named answer = answer := by
  unfold named
  split
  · exact absurd rfl (h _ rfl)
  · rfl

/-- **One of the three questions is answered as long as a turn is open**, so the first open turn is
never taken without one. -/
theorem Underway.nextTurn?_eq (h : Underway ps ms s)
    (hkey : ∀ m ∈ ms, m.home.isKey = true ∧ m.guest.isKey = true)
    (hturn : ∀ t ∈ Schedule.turns ms, t ≠ .none) (last : Value) :
    s.nextTurn? last = .ok
      ((if s.prefersApart then (openTurns ms s.placed).find?
          (isApart (homeTeam s.working.fixtures last) s.working.fixtures) else none) <|>
        mostVisiting? s.working.fixtures last (openTurns ms s.placed) <|>
        leastCarried? ms last (openTurns ms s.placed)) := by
  have hopens : openTurns s.working.fixtures s.placed = openTurns ms s.placed := by
    rw [openTurns, h.turned.turned.turns_eq, openTurns]
  have hnone : ∀ t ∈ openTurns ms s.placed, t ≠ .none := fun t ht =>
    hturn t (mem_openTurns.mp ht).1
  rw [Sequencer.nextTurn?_eq (h.isKey hkey), hopens, h.leastCarried?_eq]
  generalize openTurns ms s.placed = opens at hnone ⊢
  have hlast : (leastCarried? ms last opens <|> opens.head?) = leastCarried? ms last opens := by
    cases hleast : leastCarried? ms last opens with
    | some t => rfl
    | none =>
      rw [(leastCarried?_eq_none_iff ms last opens).mp hleast]
      rfl
  rw [named_eq fun t ht => hnone t (mem_of_mostVisiting? ht),
    named_eq fun t ht => hnone t (mem_of_leastCarried? ht), hlast, named_eq fun t ht => ?_]
  exact hnone t (List.mem_of_find?_eq_some (Option.ite_none_right_eq_some.mp ht).2)

/-- **The turn that is picked is the one that the rule tells.** -/
theorem Underway.follows_of_nextTurn? (h : Underway ps ms s)
    (hkey : ∀ m ∈ ms, m.home.isKey = true ∧ m.guest.isKey = true)
    (hturn : ∀ t ∈ Schedule.turns ms, t ≠ .none) (hlast : last ∈ s.placed)
    (hpicked : s.nextTurn? last = .ok (some t)) :
    Follows (wasHome s.result last) ms s.prefersApart (openTurns ms s.placed) last t := by
  have happart : ∀ t ∈ openTurns ms s.placed,
      isApart (homeTeam s.working.fixtures last) s.working.fixtures t = true
        ↔ StandsApart (wasHome s.result last) ms t :=
    fun t ht => isApart_iff (h.ofTurn_open (mem_openTurns.mp ht).2) (h.wasHome_eq hlast)
  have hvisits : ∀ t ∈ openTurns ms s.placed,
      visiting (homeTeam s.working.fixtures last) s.working.fixtures t
        = visits (wasHome s.result last) ms t :=
    fun t ht => visiting_eq (h.ofTurn_open (mem_openTurns.mp ht).2) (h.wasHome_eq hlast)
  rw [h.nextTurn?_eq hkey hturn] at hpicked
  generalize openTurns ms s.placed = opens at happart hvisits hpicked ⊢
  cases hfirst : (if s.prefersApart = true then
      opens.find? (isApart (homeTeam s.working.fixtures last) s.working.fixtures) else none) with
  | some u =>
    rw [hfirst] at hpicked
    obtain rfl : u = t := Option.some.inj (Except.ok.inj hpicked)
    obtain ⟨hon, hfind⟩ := Option.ite_none_right_eq_some.mp hfirst
    exact .apart hon ((Pick.isFirst_of_find? hfind).congr happart)
  | none =>
    have hnone : s.prefersApart = true →
        ∀ v ∈ opens, ¬ StandsApart (wasHome s.result last) ms v := by
      intro hon v hv hstands
      rw [if_pos hon] at hfirst
      exact List.find?_eq_none.mp hfirst v hv ((happart v hv).mpr hstands)
    rw [hfirst] at hpicked
    cases hsecond : mostVisiting? s.working.fixtures last opens with
    | some u =>
      rw [hsecond] at hpicked
      obtain rfl : u = t := Option.some.inj (Except.ok.inj hpicked)
      obtain ⟨hpos, hmost⟩ := (Pick.isFirstGreatest_of_greatest hsecond).of_filter
      rw [hvisits u (List.mem_of_mem_filter (Pick.mem_of_greatest hsecond))] at hpos
      exact .visiting hnone hpos (hmost.congr hvisits)
    | none =>
      rw [hsecond] at hpicked
      refine .carried hnone (fun v hv => ?_) (Except.ok.inj hpicked)
      have hempty := (Pick.greatest_eq_none_iff _ _).mp hsecond
      rw [← hvisits v hv]
      by_contra hpos
      exact List.filter_eq_nil_iff.mp hempty v hv (decide_eq_true (Nat.pos_of_ne_zero hpos))

/-! ## 4. Runs -/

/-- Every turn but the first follows the one before it by the rule. -/
def Chained (ms : List Fixture) (prefersApart : Bool) (s : Sequencer) : Prop :=
  s.prefersApart = prefersApart ∧ ∀ before last u after,
    s.placed = before ++ last :: u :: after →
      Follows (wasHome s.result last) ms prefersApart (openTurns ms (before ++ [last])) last u

/-- Who was at home in other turns does not depend on the turn that is added. -/
theorem wasHome_append_ofTurn {ns ns' : List Fixture} (hnew : (t == last) = false) :
    wasHome (ns ++ Schedule.ofTurn ns' t) last = wasHome ns last := by
  funext p
  have hnone : ((Schedule.ofTurn ns' t).any fun n => equals n.turn last && n.home == p) = false := by
    refine List.any_eq_false.mpr fun n hn => ?_
    have hturn : equals n.turn t = true := (List.mem_filter.mp hn).2
    rw [equals_congr_left (beq_of_equals hturn), equals_of_not_beq hnew, Bool.false_and]
    exact Bool.false_ne_true
  rw [wasHome, List.any_append, hnone, Bool.or_false, wasHome]

/-- **A turn is added by the rule**, and turns before it are not affected. -/
theorem Chained.adds {s' : Sequencer} {prefersApart : Bool}
    (hkey : ∀ m ∈ ms, m.home.isKey = true ∧ m.guest.isKey = true)
    (hturn : ∀ t ∈ Schedule.turns ms, t ≠ .none) (hs : Underway ps ms s)
    (h : Chained ms prefersApart s) (hadds : Adds t s s') : Chained ms prefersApart s' := by
  obtain ⟨hswitch, hchain⟩ := h
  obtain ⟨last, hlast, hpicked⟩ := hadds.picked
  have hnew := hadds.not_placed hkey hs
  refine ⟨hadds.prefersApart.trans hswitch, fun before v u after hsplit => ?_⟩
  rw [hadds.placed] at hsplit
  -- who was at home in a turn that was placed before
  have hhome : v ∈ s.placed → wasHome s'.result v = wasHome s.result v := by
    intro hv
    rw [hadds.result, wasHome_append_ofTurn (hnew v hv)]
  rcases List.eq_nil_or_concat after with rfl | ⟨after, w, rfl⟩
  · obtain ⟨hplaced, rfl⟩ : s.placed = before ++ [v] ∧ t = u :=
      List.append_singleton_inj.mp (hsplit.trans (List.append_cons before v [u]))
    obtain rfl : v = last := by
      rw [hplaced, List.getLast?_concat] at hlast
      exact Option.some.inj hlast
    have hv : v ∈ s.placed := List.mem_of_getLast? hlast
    rw [hhome hv, ← hplaced, ← hswitch]
    exact hs.follows_of_nextTurn? hkey hturn hv hpicked
  · obtain ⟨hplaced, -⟩ : s.placed = before ++ v :: u :: after ∧ t = w := by
      rw [List.concat_eq_append, ← List.cons_append, ← List.cons_append, ← List.append_assoc]
        at hsplit
      exact List.append_singleton_inj.mp hsplit
    have hv : v ∈ s.placed := by
      rw [hplaced]
      exact List.mem_append_right _ List.mem_cons_self
    rw [hhome hv]
    exact hchain before v u after hplaced

/-- As long as a turn is open, another one is placed. -/
theorem exists_next {placed before rest : List Value} (hperm : placed.Perm (Schedule.turns ms))
    (hsplit : placed = before ++ last :: rest) (hopen : openTurns ms (before ++ [last]) ≠ []) :
    ∃ u after, rest = u :: after := by
  obtain ⟨v, hv⟩ := List.exists_mem_of_ne_nil _ hopen
  obtain ⟨hv, hnew⟩ := mem_openTurns.mp hv
  refine List.exists_cons_of_ne_nil fun hnil => ?_
  rw [← hperm.mem_iff, hsplit, hnil] at hv
  exact absurd BEq.rfl (Bool.eq_false_iff.mp (hnew v hv))

/-- **The order is greedy.**  Of any schedule whose entries serve as keys, whose turns are
something, and whose players are among the participants, a sequencer places the turns one after the
other by the rule: whichever turn is the last one at some point, if a turn is open then there is an
answer to the third question, and the turn that comes next is the one that the rule tells by those
who are at home in the last turn in the result and by the schedule as it was given. -/
theorem sequence_follows {s : Sequencer} {ms : List Fixture} (hsource : s.source = .ofFixtures ms)
    (hkeys : ∀ m ∈ ms, m.turn.isKey = true ∧ m.home.isKey = true ∧ m.guest.isKey = true)
    (hturn : ∀ m ∈ ms, m.turn ≠ .none)
    (hparticipants : ∀ p ∈ s.participants, p.isKey = true)
    (hknown : ∀ m ∈ ms, s.participants.contains m.home = true ∧
      s.participants.contains m.guest = true) :
    ∃ ns s', Action.Runs sequence s ns s' ∧ s'.placed.Perm (Schedule.turns ms) ∧
      Turned (s'.placed.flatMap (Schedule.ofTurn ms)) ns ∧
      ∀ before last rest, s'.placed = before ++ last :: rest →
        openTurns ms (before ++ [last]) ≠ [] →
          (∃ v, leastCarried? ms last (openTurns ms (before ++ [last])) = some v) ∧
          ∃ u after, rest = u :: after ∧
            Follows (wasHome ns last) ms s.prefersApart (openTurns ms (before ++ [last]))
              last u := by
  have hkey : ∀ m ∈ ms, m.home.isKey = true ∧ m.guest.isKey = true := fun m hm => (hkeys m hm).2
  have hturns : ∀ t ∈ Schedule.turns ms, t ≠ .none := by
    intro t ht
    obtain ⟨m, hm, rfl⟩ := List.mem_map.mp ((eraseDups_sublist _).subset ht)
    exact hturn m hm
  have hnone : Chained ms s.prefersApart s.restarted :=
    ⟨rfl, fun before last u after h => absurd h.symm (List.append_ne_nil_of_right_ne_nil _
      (List.cons_ne_nil last _))⟩
  have hfirst : ∀ t ∈ Schedule.turns ms, Chained ms s.prefersApart (place t s.restarted) := by
    refine fun t _ => ⟨rfl, fun before last u after h => ?_⟩
    have hlen := congrArg List.length h
    have hone : (place t s.restarted).placed = [t] := rfl
    rw [hone, List.length_singleton, List.length_append, List.length_cons, List.length_cons] at hlen
    omega
  obtain ⟨s', hruns, hperm, hturned, -, hchain⟩ := exists_kept hsource hkeys hparticipants hknown
    hnone hfirst fun hs h hadds => h.adds hkey hturns hs hadds
  refine ⟨s'.result, s', hruns, hperm, hturned, fun before last rest hsplit hopen => ⟨?_, ?_⟩⟩
  · exact Option.ne_none_iff_exists'.mp fun hleast =>
      hopen ((leastCarried?_eq_none_iff ms last _).mp hleast)
  · obtain ⟨u, after, rfl⟩ := exists_next hperm hsplit hopen
    exact ⟨u, after, rfl, hchain before last u after hsplit⟩

/-- Turn 3 stands apart from turn 1, so it comes before turn 2, which then has a visitor. -/
theorem sequence_follows_four :
    ∃ ns s', Action.Runs sequence (create [.int 1, .int 2, .int 3, .int 4] (.ofFixtures
          [⟨.int 1, .int 1, .int 2⟩, ⟨.int 1, .int 3, .int 4⟩, ⟨.int 2, .int 1, .int 3⟩,
            ⟨.int 2, .int 4, .int 2⟩, ⟨.int 3, .int 4, .int 1⟩, ⟨.int 3, .int 2, .int 3⟩])
          true true) ns s' ∧
      s'.placed = [.int 1, .int 3, .int 2] ∧
      Follows (wasHome ns (.int 1))
        [⟨.int 1, .int 1, .int 2⟩, ⟨.int 1, .int 3, .int 4⟩, ⟨.int 2, .int 1, .int 3⟩,
          ⟨.int 2, .int 4, .int 2⟩, ⟨.int 3, .int 4, .int 1⟩, ⟨.int 3, .int 2, .int 3⟩]
        true [.int 2, .int 3] (.int 1) (.int 3) := by
  obtain ⟨ns, s', hruns, -, -, hfollows⟩ := sequence_follows
    (s := create [.int 1, .int 2, .int 3, .int 4] (.ofFixtures
      [⟨.int 1, .int 1, .int 2⟩, ⟨.int 1, .int 3, .int 4⟩, ⟨.int 2, .int 1, .int 3⟩,
        ⟨.int 2, .int 4, .int 2⟩, ⟨.int 3, .int 4, .int 1⟩, ⟨.int 3, .int 2, .int 3⟩]) true true)
    rfl (by decide) (by simp) (by decide) (by decide)
  have hplaced : s'.placed = [.int 1, .int 3, .int 2] := by
    rw [← hruns.2]
    rfl
  obtain ⟨-, u, after, hrest, hrule⟩ := hfollows [] (.int 1) [.int 3, .int 2] hplaced (by decide)
  obtain rfl : .int 3 = u := (List.cons.inj hrest).1
  exact ⟨ns, s', hruns, hplaced, hrule⟩

end Sequencer
end Matchday
