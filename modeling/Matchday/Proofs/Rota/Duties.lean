/-
# Who goes on duty

A referee is somebody who does not play in the match (`mem_free_of_pick?`), and has no more duties
than anybody else who could have gone (`count_le_of_pick?`).  With three different referees somebody
is always free, with four of them somebody who was not on duty last.

`duties` lists the referees of some matches under the fourth rule, without the state that a rota
threads through them; under the other rules the match alone decides (`refereeOf`).  Both are what a
rota comes to (`runs_assignAll_other`, `runs_assignAll_of_ne`).  Three facts about a whole list of
duties follow by going through the matches: there is one for each match as long as there are three
referees (`exists_duties`), each keeps to its match (`forall₂_duties`), and with four referees
nobody is on duty twice in a row (`isChain_duties`).  What is true after any number of matches is
true of a list of duties cut short (`duties_take`) and is proved by adding one match at the end
(`duties_concat`).
-/
import Mathlib.Data.List.Forall2
import Matchday.Proofs.Counting
import Matchday.Proofs.Picks
import Matchday.Proofs.Rearrangement
import Matchday.Proofs.Runs
import Matchday.Rota
import Matchday.Value.Equivalence

namespace Matchday.Rota

variable {τ : Type}

/-! ## 1. One match -/

section Picking

variable {refs assigned cs : List Value} {home guest v x : Value}

/-- Free is who does not play. -/
theorem mem_free :
    v ∈ free refs home guest ↔ v ∈ refs ∧ equals v home = false ∧ equals v guest = false := by
  simp [free]

/-- It does not matter who of the two is at home. -/
theorem free_swap (refs : List Value) (home guest : Value) :
    free refs guest home = free refs home guest :=
  List.filter_congr fun r _ => Bool.and_comm (!equals r guest) (!equals r home)

theorem pick?_swap (refs assigned : List Value) (home guest : Value) :
    pick? refs assigned guest home = pick? refs assigned home guest := by
  rw [pick?, pick?, free_swap]

theorem mem_of_mem_rested (h : v ∈ rested assigned cs) : v ∈ cs := by
  unfold rested at h
  dsimp only at h
  split at h
  · exact h
  · exact List.mem_of_mem_filter h

/-- Whoever was not on duty last is rested. -/
theorem mem_rested (hx : x ∈ cs) (hlast : equals x (lastOnDuty assigned) = false) :
    x ∈ rested assigned cs := by
  have hmem : x ∈ cs.filter (!equals · (lastOnDuty assigned)) :=
    List.mem_filter.mpr ⟨hx, congrArg not hlast⟩
  unfold rested
  dsimp only
  split
  · exact hx
  · exact hmem

/-- As long as somebody else is free, the one on duty last is passed over. -/
theorem ne_last_of_mem_rested (hx : x ∈ cs) (hlast : equals x (lastOnDuty assigned) = false)
    (h : v ∈ rested assigned cs) : equals v (lastOnDuty assigned) = false := by
  have hmem : x ∈ cs.filter (!equals · (lastOnDuty assigned)) :=
    List.mem_filter.mpr ⟨hx, congrArg not hlast⟩
  unfold rested at h
  dsimp only at h
  rw [if_neg fun hnil => List.ne_nil_of_mem hmem (List.isEmpty_iff.mp hnil)] at h
  simpa using (List.mem_filter.mp h).2

/-- **The referee does not play.** -/
theorem mem_free_of_pick? (h : pick? refs assigned home guest = some v) :
    v ∈ free refs home guest :=
  mem_of_mem_rested (Pick.mem_of_least h)

/-- **The referee has no more duties than anybody else who could have gone.** -/
theorem count_le_of_pick? (h : pick? refs assigned home guest = some v)
    (hx : x ∈ free refs home guest) (hlast : equals x (lastOnDuty assigned) = false) :
    assigned.count v ≤ assigned.count x :=
  Pick.le_of_least h x (mem_rested hx hlast)

/-- The referee was not on duty last, as long as somebody else is free. -/
theorem ne_last_of_pick? (h : pick? refs assigned home guest = some v)
    (hx : x ∈ free refs home guest) (hlast : equals x (lastOnDuty assigned) = false) :
    equals v (lastOnDuty assigned) = false :=
  ne_last_of_mem_rested hx hlast (Pick.mem_of_least h)

/-- Of three different referees one is free. -/
theorem exists_pick? (hd : AllDifferent refs) (h3 : 3 ≤ refs.length) (assigned : List Value)
    (home guest : Value) : ∃ v, pick? refs assigned home guest = some v := by
  obtain ⟨x, hx, -, hne⟩ := exists_of_length_lt_countP hd [home, guest]
    (p := fun _ => true) (by rw [List.countP_true]; exact h3)
  have hfree : x ∈ free refs home guest := mem_free.mpr
    ⟨hx, equals_of_not_beq (hne home (by simp)), equals_of_not_beq (hne guest (by simp))⟩
  refine Option.ne_none_iff_exists'.mp fun hnone => ?_
  rw [pick?_eq_none_iff] at hnone
  rw [hnone] at hfree
  exact List.not_mem_nil hfree

/-- **More referees of a sort than play or have just been on duty**: one of them could go. -/
theorem exists_rested (hd : AllDifferent refs) {p : Value → Bool} (h4 : 4 ≤ refs.countP p)
    (assigned : List Value) (home guest : Value) :
    ∃ x ∈ free refs home guest, p x = true ∧ equals x (lastOnDuty assigned) = false := by
  obtain ⟨x, hx, hp, hne⟩ := exists_of_length_lt_countP hd
    [home, guest, lastOnDuty assigned] h4
  have hne : ∀ y ∈ [home, guest, lastOnDuty assigned], equals x y = false := fun y hy =>
    equals_of_not_beq (hne y hy)
  exact ⟨x, mem_free.mpr ⟨hx, hne home (by simp), hne guest (by simp)⟩, hp, hne _ (by simp)⟩

end Picking

@[simp] theorem lastOnDuty_concat (assigned : List Value) (v : Value) :
    lastOnDuty (assigned ++ [v]) = v := by
  rw [lastOnDuty, List.getLast?_concat, Option.getD_some]

/-! ## 2. One match after the other -/

/-- The referees of some matches under the fourth rule, after some duties; nothing if nobody is
free in one of them. -/
def duties (refs : List Value) : List Value → List (Match τ Value) → Option (List Value)
  | _, [] => some []
  | assigned, m :: ms => do
    let v ← pick? refs assigned m.home m.guest
    let vs ← duties refs (assigned ++ [v]) ms
    return v :: vs

/-- The referee of a match under the three rules by which the match alone decides. -/
def refereeOf (rule : RefereeRule) (m : Match τ Value) : Value :=
  match rule with
  | .home => m.home
  | .guest => m.guest
  | _ => .none

section Duties

variable {refs assigned vs ws : List Value} {ms ns : List (Match τ Value)} {m : Match τ Value}
  {v : Value}

theorem duties_cons :
    duties refs assigned (m :: ms) = some ws ↔ ∃ v vs, pick? refs assigned m.home m.guest = some v ∧
      duties refs (assigned ++ [v]) ms = some vs ∧ ws = v :: vs := by
  rw [duties]
  simp only [Option.bind_eq_bind, Option.bind_eq_some_iff, Option.pure_def, Option.some.injEq]
  constructor
  · rintro ⟨v, hv, vs, hvs, rfl⟩
    exact ⟨v, vs, hv, hvs, rfl⟩
  · rintro ⟨v, vs, hv, hvs, rfl⟩
    exact ⟨v, hv, vs, hvs, rfl⟩

/-- **One match more at the end.** -/
theorem duties_concat :
    duties refs assigned (ms ++ [m]) = some ws ↔ ∃ vs v, duties refs assigned ms = some vs ∧
      pick? refs (assigned ++ vs) m.home m.guest = some v ∧ ws = vs ++ [v] := by
  induction ms generalizing assigned ws with
  | nil =>
    rw [List.nil_append, duties_cons]
    constructor
    · rintro ⟨v, vs, hv, hvs, rfl⟩
      cases hvs
      exact ⟨[], v, rfl, by rwa [List.append_nil], rfl⟩
    · rintro ⟨vs, v, hvs, hv, rfl⟩
      cases hvs
      exact ⟨v, [], by rwa [List.append_nil] at hv, rfl, rfl⟩
  | cons n ms ih =>
    rw [List.cons_append, duties_cons]
    constructor
    · rintro ⟨u, us, hu, hus, rfl⟩
      obtain ⟨vs, v, hvs, hv, rfl⟩ := ih.mp hus
      refine ⟨u :: vs, v, duties_cons.mpr ⟨u, vs, hu, hvs, rfl⟩, ?_, rfl⟩
      rwa [List.append_assoc] at hv
    · rintro ⟨us, v, hus, hv, rfl⟩
      obtain ⟨u, vs, hu, hvs, rfl⟩ := duties_cons.mp hus
      refine ⟨u, vs ++ [v], hu, ih.mpr ⟨vs, v, hvs, ?_, rfl⟩, rfl⟩
      rwa [List.append_assoc]

/-- **The first matches have the first duties.** -/
theorem duties_take (h : duties refs assigned ms = some vs) (k : Nat) :
    duties refs assigned (ms.take k) = some (vs.take k) := by
  induction ms generalizing assigned vs k with
  | nil =>
    cases h
    rw [List.take_nil, List.take_nil]
    rfl
  | cons m ms ih =>
    obtain ⟨u, us, hu, hus, rfl⟩ := duties_cons.mp h
    cases k with
    | zero => rfl
    | succ k => exact duties_cons.mpr ⟨u, us.take k, hu, ih hus k, rfl⟩

/-- Only the players of a match count, not its turn and not who is at home. -/
theorem duties_turned (h : Turned ms ns) : duties refs assigned ns = duties refs assigned ms := by
  induction h generalizing assigned with
  | nil => rfl
  | cons hmn _ ih =>
    rcases hmn with rfl | rfl
    · simp only [duties, ih]
    · simp only [duties, ih, Match.swapped, pick?_swap]

theorem duties_map_turn {τ' : Type} (f : τ → τ') (refs assigned : List Value)
    (ms : List (Match τ Value)) :
    duties refs assigned (ms.map (·.map f id)) = duties refs assigned ms := by
  induction ms generalizing assigned with
  | nil => rfl
  | cons m ms ih =>
    simp only [List.map_cons, duties, ih]
    rfl

/-- **With three different referees every match gets one.** -/
theorem exists_duties (hd : AllDifferent refs) (h3 : 3 ≤ refs.length) (assigned : List Value)
    (ms : List (Match τ Value)) : ∃ vs, duties refs assigned ms = some vs := by
  induction ms generalizing assigned with
  | nil => exact ⟨[], rfl⟩
  | cons m ms ih =>
    obtain ⟨v, hv⟩ := exists_pick? hd h3 assigned m.home m.guest
    obtain ⟨vs, hvs⟩ := ih (assigned ++ [v])
    exact ⟨v :: vs, duties_cons.mpr ⟨v, vs, hv, hvs, rfl⟩⟩

/-- **Referees do not play in their matches.** -/
theorem forall₂_duties (h : duties refs assigned ms = some vs) :
    List.Forall₂ (fun m v => v ∈ free refs m.home m.guest) ms vs := by
  induction ms generalizing assigned vs with
  | nil =>
    cases h
    exact List.Forall₂.nil
  | cons m ms ih =>
    obtain ⟨u, us, hu, hus, rfl⟩ := duties_cons.mp h
    exact List.Forall₂.cons (mem_free_of_pick? hu) (ih hus)

/-- **With four different referees nobody is on duty twice in a row.** -/
theorem isChain_duties (hd : AllDifferent refs) (h4 : 4 ≤ refs.length)
    (h : duties refs assigned ms = some vs) :
    (lastOnDuty assigned :: vs).IsChain fun a b => equals b a = false := by
  induction ms generalizing assigned vs with
  | nil =>
    cases h
    exact List.IsChain.singleton _
  | cons m ms ih =>
    obtain ⟨u, us, hu, hus, rfl⟩ := duties_cons.mp h
    obtain ⟨x, hx, -, hlast⟩ := exists_rested hd (p := fun _ => true)
      (by rw [List.countP_true]; exact h4) assigned m.home m.guest
    have hrest := ih hus
    rw [lastOnDuty_concat] at hrest
    exact List.isChain_cons_cons.mpr ⟨ne_last_of_pick? hu hx hlast, hrest⟩

end Duties

/-! ## 3. What a rota comes to -/

section Runs

variable {refs assigned vs : List Value} {m : Fixture} {ms : List Fixture} {v : Value}
  {r r' : Rota} {rule : RefereeRule}

/-- Somebody else goes on duty just when somebody is picked. -/
theorem runs_assignOther :
    Action.Runs (assignOther m) r v r' ↔
      pick? r.referees r.assigned m.home m.guest = some v ∧ onDuty v r = r' := by
  unfold assignOther
  rw [Action.runs_bind]
  constructor
  · rintro ⟨_, _, hstate, h⟩
    obtain ⟨rfl, rfl⟩ := Action.runs_state.mp hstate
    cases hpick : pick? r.referees r.assigned m.home m.guest with
    | none =>
      rw [hpick] at h
      exact absurd (Action.runs_lift.mp h).1 (Outcome.result_reject_ne _ _)
    | some u =>
      rw [hpick] at h
      obtain ⟨_, _, hchange, h⟩ := Action.runs_bind.mp h
      obtain ⟨rfl, rfl⟩ := Action.runs_pure.mp h
      exact ⟨rfl, Action.runs_change.mp hchange⟩
  · rintro ⟨hpick, rfl⟩
    refine ⟨r, r, Action.runs_state.mpr ⟨rfl, rfl⟩, ?_⟩
    rw [hpick]
    exact Action.runs_bind.mpr ⟨(), _, Action.runs_change.mpr rfl, Action.runs_pure.mpr ⟨rfl, rfl⟩⟩

/-- Under the fourth rule somebody else goes on duty. -/
theorem runs_assign_other (hrule : r.rule = some .other) :
    Action.Runs (assign (Row.ofFixture m)) r v r' ↔
      pick? r.referees r.assigned m.home m.guest = some v ∧ onDuty v r = r' := by
  rw [← runs_assignOther]
  unfold assign
  rw [Action.runs_bind]
  constructor
  · rintro ⟨_, _, hstate, h⟩
    obtain ⟨rfl, rfl⟩ := Action.runs_state.mp hstate
    rw [hrule] at h
    obtain ⟨n, _, hread, h⟩ := Action.runs_bind.mp h
    obtain ⟨hn, rfl⟩ := Action.runs_lift.mp hread
    cases hn
    exact h
  · intro h
    refine ⟨r, r, Action.runs_state.mpr ⟨rfl, rfl⟩, ?_⟩
    rw [hrule]
    exact Action.runs_bind.mpr ⟨m, r, Action.runs_lift.mpr ⟨rfl, rfl⟩, h⟩

/-- Under the other rules the match decides, and the rota stays as it is. -/
theorem runs_assign_of_ne (hrule : r.rule = some rule) (hne : rule ≠ .other) :
    Action.Runs (assign (Row.ofFixture m)) r v r' ↔ refereeOf rule m = v ∧ r = r' := by
  unfold assign
  rw [Action.runs_bind]
  constructor
  · rintro ⟨_, _, hstate, h⟩
    obtain ⟨rfl, rfl⟩ := Action.runs_state.mp hstate
    rw [hrule] at h
    cases rule with
    | nobody => exact Action.runs_pure.mp h
    | home | guest =>
      obtain ⟨hv, rfl⟩ := Action.runs_lift.mp h
      cases hv
      exact ⟨rfl, rfl⟩
    | other => exact absurd rfl hne
  · rintro ⟨rfl, rfl⟩
    refine ⟨r, r, Action.runs_state.mpr ⟨rfl, rfl⟩, ?_⟩
    rw [hrule]
    cases rule with
    | nobody => exact Action.runs_pure.mpr ⟨rfl, rfl⟩
    | home | guest => exact Action.runs_lift.mpr ⟨rfl, rfl⟩
    | other => exact absurd rfl hne

/-- A rota that serves some matches serves the first and then the others. -/
theorem runs_assignAll_cons :
    Action.Runs (assignAll (m :: ms)) r vs r' ↔ ∃ v us r₁,
      Action.Runs (assign (Row.ofFixture m)) r v r₁ ∧ Action.Runs (assignAll ms) r₁ us r' ∧
        vs = v :: us := by
  constructor
  · intro h
    obtain ⟨v, r₁, hfirst, h⟩ := Action.runs_bind.mp h
    obtain ⟨us, r₂, hrest, h⟩ := Action.runs_bind.mp h
    obtain ⟨rfl, rfl⟩ := Action.runs_pure.mp h
    exact ⟨v, us, r₁, hfirst, hrest, rfl⟩
  · rintro ⟨v, us, r₁, hfirst, hrest, rfl⟩
    exact Action.runs_bind.mpr ⟨v, r₁, hfirst, Action.runs_bind.mpr
      ⟨us, r', hrest, Action.runs_pure.mpr ⟨rfl, rfl⟩⟩⟩

/-- **Under the fourth rule a rota comes to the duties**, and remembers them. -/
theorem runs_assignAll_other :
    Action.Runs (assignAll ms) ⟨some .other, refs, assigned⟩ vs r' ↔
      duties refs assigned ms = some vs ∧ r' = ⟨some .other, refs, assigned ++ vs⟩ := by
  induction ms generalizing assigned vs with
  | nil =>
    constructor
    · intro h
      obtain ⟨rfl, rfl⟩ := Action.runs_pure.mp h
      exact ⟨rfl, by rw [List.append_nil]⟩
    · rintro ⟨h, rfl⟩
      cases h
      exact Action.runs_pure.mpr ⟨rfl, by rw [List.append_nil]⟩
  | cons m ms ih =>
    rw [runs_assignAll_cons, duties_cons]
    constructor
    · rintro ⟨v, us, r₁, hfirst, hrest, rfl⟩
      obtain ⟨hv, rfl⟩ := (runs_assign_other rfl).mp hfirst
      obtain ⟨hus, rfl⟩ := ih.mp hrest
      exact ⟨⟨v, us, hv, hus, rfl⟩, by rw [List.append_assoc]; rfl⟩
    · rintro ⟨⟨v, us, hv, hus, rfl⟩, rfl⟩
      refine ⟨v, us, _, (runs_assign_other rfl).mpr ⟨hv, rfl⟩, ih.mpr ⟨hus, ?_⟩, rfl⟩
      rw [List.append_assoc]
      rfl

/-- **Under the other rules every match decides for itself.** -/
theorem runs_assignAll_of_ne (hrule : r.rule = some rule) (hne : rule ≠ .other) :
    Action.Runs (assignAll ms) r vs r' ↔ vs = ms.map (refereeOf rule) ∧ r = r' := by
  induction ms generalizing vs with
  | nil =>
    constructor
    · intro h
      obtain ⟨rfl, rfl⟩ := Action.runs_pure.mp h
      exact ⟨rfl, rfl⟩
    · rintro ⟨rfl, rfl⟩
      exact Action.runs_pure.mpr ⟨rfl, rfl⟩
  | cons m ms ih =>
    rw [runs_assignAll_cons]
    constructor
    · rintro ⟨v, us, r₁, hfirst, hrest, rfl⟩
      obtain ⟨rfl, rfl⟩ := (runs_assign_of_ne hrule hne).mp hfirst
      obtain ⟨rfl, rfl⟩ := ih.mp hrest
      exact ⟨rfl, rfl⟩
    · rintro ⟨rfl, rfl⟩
      exact ⟨_, _, r, (runs_assign_of_ne hrule hne).mpr ⟨rfl, rfl⟩, ih.mpr ⟨rfl, rfl⟩, rfl⟩

end Runs

end Matchday.Rota
