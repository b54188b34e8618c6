/-
# What a session leaves behind

However many requests a planner has answered, all that matters for its next leg are its settings and
the participants it accepted last.  It keeps nothing else from one request to the next but the legs
it has made, and of those it reads none again.  So a new planner that is given the same settings and
participants answers the same (`sessions_are_forgotten`).

A request that fails leaves everything as it was (`atomic_answer`).  One that succeeds does not
touch a leg that was handed out before, unless it is a request to that very leg.  The legs of a desk
have places, new legs get new places, and a place is never handed out twice (`Desk.Tidy`), so what
is kept under a name can be reached under no other.  What becomes of a leg is then told by the
requests to it alone (`leg?_run`).
-/
import Mathlib.Data.List.Basic
import Matchday.Planner.Session
import Matchday.Proofs.Planner.Acceptance

namespace Matchday

/-! ## 1. Legs -/

/-- A request to a leg that fails leaves the leg as it was. -/
theorem Leg.atomic_answer (q : Leg.Request) : Action.Atomic (Leg.answer q) := by
  cases q with
  | «show» => exact Action.atomic_state_bind fun _ => Action.atomic_pure _
  | ofTurn t => exact Action.atomic_state_bind fun _ => Action.atomic_pure _
  | turns | text | textAt i =>
    exact Action.atomic_state_bind fun _ => Action.atomic_lift_bind fun _ => Action.atomic_pure _
  | sameAt i j =>
    exact Action.atomic_state_bind fun _ => Action.atomic_lift_bind fun _ =>
      Action.atomic_lift_bind fun _ => Action.atomic_pure _
  | swapAt i =>
    exact Action.atomic_state_bind fun _ => Action.atomic_lift_bind fun _ =>
      Action.atomic_lift_bind fun _ => Action.atomic_of_succeeds fun _ => ⟨_, rfl⟩
  | append parts =>
    exact Action.atomic_lift_bind fun _ => Action.atomic_of_succeeds fun _ => ⟨_, rfl⟩

namespace Planner

/-! ## 2. Desks -/

namespace Desk

variable {d : Desk} {name other : String} {place : Nat} {leg first mirrored : Leg} {half : Half}

/-- A name that was handed out stands for the leg that was, and other names stand for what they
did. -/
theorem lookup_handOut (d : Desk) (name other : String) (half : Half) :
    (d.handOut name half).kept.lookup other
      = if other = name then some (d.ownPlace half) else d.kept.lookup other := by
  rw [handOut, List.lookup_cons]
  by_cases hname : other = name
  · rw [if_pos hname, beq_iff_eq.mpr hname]
  · rw [if_neg hname, beq_false_of_ne hname]
    dsimp only
    induction d.kept with
    | nil => rfl
    | cons entry kept ih =>
      rw [List.filter_cons, List.lookup_cons]
      by_cases hentry : entry.1 = name
      · rw [if_neg (by simp [hentry]), ih, beq_false_of_ne (hentry ▸ hname)]
      · rw [if_pos (by simp [hentry]), List.lookup_cons, ih]

theorem leg?_eq_ok_iff :
    d.leg? name = .ok leg ↔ ∃ place, d.kept.lookup name = some place ∧ d.legAt place = leg := by
  unfold leg? place?
  cases d.kept.lookup name with
  | none => exact ⟨nofun, nofun⟩
  | some place =>
    constructor
    · intro h
      cases h
      exact ⟨place, rfl, rfl⟩
    · rintro ⟨_, hplace, rfl⟩
      cases hplace
      rfl

/-- **Tidy**: names stand for legs that there are, each name for a leg of its own. -/
structure Tidy (d : Desk) : Prop where
  inRange : ∀ name place, d.kept.lookup name = some place → place < d.legs.length
  apart : ∀ name other place, d.kept.lookup name = some place →
    d.kept.lookup other = some place → name = other

theorem tidy_opened (p : Planner) : Tidy (opened p) := ⟨nofun, nofun⟩

theorem Tidy.withPlanner (h : Tidy d) (p : Planner) : Tidy { d with planner := p } :=
  ⟨h.inRange, h.apart⟩

/-- New legs get new places. -/
theorem legAt_renew (hplace : place < d.legs.length) :
    (d.renew first mirrored).legAt place = d.legAt place := by
  rw [legAt, renew, List.getD_eq_getElem?_getD, List.getElem?_append_left hplace, legAt,
    List.getD_eq_getElem?_getD]

/-- The planner's own legs are the new ones. -/
theorem legAt_renew_own (d : Desk) (rule : RefereeRule) (draft : Draft) (half : Half) :
    (d.renew (firstLeg draft) (mirroredLeg rule draft)).legAt
        ((d.renew (firstLeg draft) (mirroredLeg rule draft)).ownPlace half)
      = legOf rule draft half := by
  cases half <;> simp [legAt, renew, ownPlace, legOf]

theorem Tidy.renew (h : Tidy d) (first mirrored : Leg) : Tidy (d.renew first mirrored) where
  inRange := fun name place hplace => by
    have := h.inRange name place hplace
    rw [Desk.renew, List.length_append]
    omega
  apart := h.apart

/-- The planner's own legs lie in the new places. -/
theorem ownPlace_renew (d : Desk) (first mirrored : Leg) (half : Half) :
    d.legs.length ≤ (d.renew first mirrored).ownPlace half ∧
      (d.renew first mirrored).ownPlace half < (d.renew first mirrored).legs.length := by
  cases half <;> simp [renew, ownPlace]

/-- What is handed out next was never handed out before. -/
theorem Tidy.handOut (h : Tidy d) (first mirrored : Leg) (name : String) (half : Half) :
    Tidy ((d.renew first mirrored).handOut name half) := by
  have hnew := d.ownPlace_renew first mirrored half
  constructor
  · intro other place hplace
    rw [lookup_handOut] at hplace
    split at hplace
    · cases hplace
      exact hnew.2
    · exact (h.renew first mirrored).inRange other place hplace
  · intro n o place hn ho
    rw [lookup_handOut] at hn ho
    split at hn <;> split at ho
    · rename_i hn' ho'
      rw [hn', ho']
    · cases hn
      have := h.inRange o _ ho
      omega
    · cases ho
      have := h.inRange n _ hn
      omega
    · exact h.apart n o place hn ho

theorem Tidy.put (h : Tidy d) (place : Nat) (leg : Leg) : Tidy (d.put place leg) where
  inRange := fun name i hi => by
    rw [Desk.put, List.length_set]
    exact h.inRange name i hi
  apart := h.apart

theorem put_legAt (d : Desk) (place : Nat) : d.put place (d.legAt place) = d := by
  have hsame : d.legs.set place (d.legs.getD place []) = d.legs := by
    refine List.ext_getElem (List.length_set ..) fun i hi _ => ?_
    rw [List.getElem_set]
    split
    · rename_i hplace
      subst hplace
      rw [List.getD_eq_getElem?_getD, List.getElem?_eq_getElem (by simpa using hi),
        Option.getD_some]
    · rfl
  rw [put, legAt, hsame]

theorem legAt_put_self (hplace : place < d.legs.length) : (d.put place leg).legAt place = leg := by
  rw [legAt, put, List.getD_eq_getElem?_getD, List.getElem?_set_self hplace, Option.getD_some]

theorem legAt_put_of_ne {i : Nat} (hne : i ≠ place) : (d.put place leg).legAt i = d.legAt i := by
  rw [legAt, put, List.getD_eq_getElem?_getD, List.getElem?_set_ne hne.symm, legAt,
    List.getD_eq_getElem?_getD]

/-- What is handed out is found under its name. -/
theorem leg?_handOut (d : Desk) (name : String) (half : Half) :
    (d.handOut name half).leg? name = .ok (d.legAt (d.ownPlace half)) :=
  leg?_eq_ok_iff.mpr ⟨d.ownPlace half, by rw [lookup_handOut, if_pos rfl], rfl⟩

/-- A leg that is changed is found under its name. -/
theorem Tidy.leg?_put (h : Tidy d) (hplace : d.kept.lookup name = some place) (leg : Leg) :
    (d.put place leg).leg? name = .ok leg :=
  leg?_eq_ok_iff.mpr ⟨place, hplace, legAt_put_self (h.inRange name place hplace)⟩

end Desk

/-! ## 3. Requests -/

section Requests

variable {d : Desk}

/-- **Participants are set if they are accepted**, and the planner has two empty legs then. -/
theorem answer_setParticipants (source : Source) (d : Desk) :
    match (accept d.planner.participantKind source).result with
    | .error e => (answer (.setParticipants source) d).1.result = .error e ∧
        (answer (.setParticipants source) d).2 = d
    | .ok items => Action.Runs (answer (.setParticipants source)) d (.values items)
        (Desk.renew [] [] { d with planner := { d.planner with participants := items } }) := by
  unfold Action.Runs
  simp only [answer, onPlanner, setParticipants, Action.bind_apply, Action.state_apply,
    Action.lift_apply, Action.change_apply]
  rcases accept d.planner.participantKind source with ⟨e | items, log⟩ <;> exact ⟨rfl, rfl⟩

/-- **A setting is given its value**, if it can be given one under that name. -/
theorem answer_set (name : String) (v : Value) (d : Desk) :
    match (Settings.Panel.opened d.planner.settings).give name v with
    | .error e => answer (.set name v) d = (Outcome.fail e, d)
    | .ok given => answer (.set name v) d = (Outcome.ok .done,
        { d with planner := { d.planner with settings := given.settings } }) := by
  simp only [answer, Action.bind_apply, Action.state_apply, Action.lift_apply,
    Action.change_apply, Outcome.ofExcept]
  cases (Settings.Panel.opened d.planner.settings).give name v <;> rfl

/-- **A leg that is planned is handed out**, and it is a new one. -/
theorem handOutLeg_cases (rule half : Value) (name : String) (d : Desk) :
    (handOutLeg rule half name d).1 = d.planner.leg rule half ∧
      ((∃ e, (d.planner.leg rule half).result = .error e ∧ (handOutLeg rule half name d).2 = d) ∨
        ∃ first mirrored h, (d.planner.leg rule half).result
            = .ok ((d.renew first mirrored).legAt ((d.renew first mirrored).ownPlace h)) ∧
          (handOutLeg rule half name d).2 = (d.renew first mirrored).handOut name h) := by
  simp only [handOutLeg, Planner.leg, Action.bind_apply, Action.state_apply, Action.lift_apply,
    Action.change_apply, Outcome.bind_apply]
  rcases d.planner.ruleFor rule with ⟨e | r, log⟩
  · exact ⟨rfl, Or.inl ⟨e, rfl, rfl⟩⟩
  rcases Half.read half with ⟨e | h, log'⟩
  · exact ⟨rfl, Or.inl ⟨e, rfl, rfl⟩⟩
  dsimp only
  rcases d.planner.draft r with ⟨e | draft, log''⟩
  · exact ⟨rfl, Or.inl ⟨e, rfl, rfl⟩⟩
  have hown := d.legAt_renew_own r draft h
  refine ⟨?_, Or.inr ⟨_, _, h, congrArg Except.ok hown.symm, rfl⟩⟩
  exact congrArg (fun leg => (⟨.ok leg, log ++ (log' ++ (log'' ++ []))⟩ : Outcome Leg)) hown

/-- **What is answered to a request for a leg** depends on the planner alone. -/
theorem fst_answer_leg (rule half : Value) (name : String) (d : Desk) :
    (answer (.leg rule half name) d).1
      = d.planner.leg rule half >>= fun leg => pure (.leg (.leg leg)) := by
  rw [answer, Action.fst_bind_pure, (handOutLeg_cases rule half name d).1]

theorem snd_answer_leg (rule half : Value) (name : String) (d : Desk) :
    (answer (.leg rule half name) d).2 = (handOutLeg rule half name d).2 := by
  rw [answer, Action.snd_bind_pure]

/-- **A request to a leg** changes the leg in its place. -/
theorem answer_ofLeg (name : String) (q : Leg.Request) (d : Desk) :
    match d.kept.lookup name with
    | none => (answer (.ofLeg name q) d).2 = d
    | some place =>
      (answer (.ofLeg name q) d).1 = (Leg.answer q (d.legAt place)).1 >>= (fun a => pure (.leg a)) ∧
        (answer (.ofLeg name q) d).2 = d.put place (Leg.answer q (d.legAt place)).2 := by
  rw [answer, Action.fst_bind_pure, Action.snd_bind_pure, onLeg, Desk.place?]
  cases d.kept.lookup name with
  | none => rfl
  | some place => exact ⟨rfl, rfl⟩

/-- The request only looks at what there is. -/
def Request.looks : Request → Bool
  | .participants | .matchesPerLeg | .sameLegs _ _ => true
  | _ => false

theorem snd_answer_of_looks {r : Request} (hr : r.looks = true) (d : Desk) :
    (answer r d).2 = d := by
  cases r with
  | participants | matchesPerLeg => rfl
  | sameLegs name other =>
    simp only [answer, Action.bind_apply, Action.state_apply, Action.lift_apply, Outcome.ofExcept]
    rcases d.leg? name with e | leg
    · rfl
    · rcases d.leg? other with e | leg' <;> rfl
  | _ => cases hr

/-- **A request that fails leaves the desk as it was.** -/
theorem atomic_answer (r : Request) : Action.Atomic (answer r) := by
  intro d e he
  cases r with
  | participants | matchesPerLeg | sameLegs => exact snd_answer_of_looks rfl d
  | setParticipants source =>
    have h := answer_setParticipants source d
    split at h
    · exact h.2
    · rw [h.1] at he
      cases he
  | set name v =>
    have h := answer_set name v d
    split at h
    · rw [h]
    · rw [h] at he
      cases he
  | leg rule half name =>
    rw [snd_answer_leg]
    rcases (handOutLeg_cases rule half name d).2 with ⟨e', -, hsame⟩ | ⟨first, mirrored, h, hok, -⟩
    · exact hsame
    · rw [fst_answer_leg, Outcome.result_bind, hok] at he
      cases he
  | ofLeg name q =>
    have h := answer_ofLeg name q d
    split at h
    · exact h
    · rename_i place _
      obtain ⟨hfst, hsnd⟩ := h
      rw [hsnd]
      rw [hfst, Outcome.result_bind] at he
      cases hresult : (Leg.answer q (d.legAt place)).1.result with
      | error e' => rw [Leg.atomic_answer q _ _ hresult, Desk.put_legAt]
      | ok a =>
        rw [hresult] at he
        cases he

end Requests

/-! ## 4. The planner of the moment -/

/-- The participants after a request: those that it sets, if they are accepted. -/
def Request.participantsAfter (kind : Kind) (ps : List Value) : Request → List Value
  | .setParticipants source => (accept kind source).result.toOption.getD ps
  | _ => ps

/-- The settings after a request: one of them has another value if it was given one. -/
def Request.settingsAfter (s : Settings) : Request → Settings
  | .set name v =>
    match (Settings.Panel.opened s).give name v with
    | .error _ => s
    | .ok given => given.settings
  | _ => s

/-- **The participants accepted last**: nobody, before anybody was. -/
def lastAccepted (kind : Kind) (rs : List Request) : List Value :=
  rs.foldl (Request.participantsAfter kind) []

/-- **The settings of the moment**, with all values that were given to them. -/
def settingsOfMoment (s : Settings) (rs : List Request) : Settings :=
  rs.foldl Request.settingsAfter s

section Moment

variable {kind refereeKind : Kind} {s : Settings} {ps : List Value} {rs : List Request}

/-- A request changes participants and settings as it says, and nothing else about a planner. -/
theorem planner_answer {d : Desk} (hd : d.planner = ⟨kind, refereeKind, s, ps⟩) (r : Request) :
    (answer r d).2.planner
      = ⟨kind, refereeKind, r.settingsAfter s, r.participantsAfter kind ps⟩ := by
  cases r with
  | participants | matchesPerLeg | sameLegs =>
    rw [snd_answer_of_looks rfl d]
    exact hd
  | setParticipants source =>
    have h := answer_setParticipants source d
    rw [hd] at h
    dsimp only [Request.settingsAfter, Request.participantsAfter] at h ⊢
    cases haccept : (accept kind source).result with
    | error e =>
      rw [haccept] at h
      rw [h.2]
      exact hd
    | ok items =>
      rw [haccept] at h
      rw [h.2]
      rfl
  | set name v =>
    have h := answer_set name v d
    rw [hd] at h
    dsimp only [Request.settingsAfter, Request.participantsAfter] at h ⊢
    cases hgive : (Settings.Panel.opened s).give name v with
    | error e =>
      rw [hgive] at h
      rw [h]
      exact hd
    | ok given =>
      rw [hgive] at h
      rw [h]
  | leg rule half name =>
    rw [snd_answer_leg]
    rcases (handOutLeg_cases rule half name d).2 with ⟨_, -, hsame⟩ | ⟨_, _, _, -, hsame⟩
    · rw [hsame]
      exact hd
    · rw [hsame]
      exact hd
  | ofLeg name q =>
    have h := answer_ofLeg name q d
    split at h
    · rw [h]
      exact hd
    · rw [h.2]
      exact hd

/-- **After any requests** the planner has the settings of the moment and the participants accepted
last. -/
theorem planner_run {d : Desk} (hd : d.planner = ⟨kind, refereeKind, s, ps⟩) (rs : List Request) :
    (Session.run answer rs d).2.planner = ⟨kind, refereeKind, rs.foldl Request.settingsAfter s,
      rs.foldl (Request.participantsAfter kind) ps⟩ := by
  induction rs generalizing d s ps with
  | nil => exact hd
  | cons r rs ih => exact ih (planner_answer hd r)

/-- Accepted participants are accepted again. -/
theorem accept_lastAccepted (kind : Kind) (rs : List Request) :
    (accept kind (.value (.tuple (lastAccepted kind rs)))).result
      = .ok (lastAccepted kind rs) := by
  have hagain : ∀ ps : List Value, (accept kind (.value (.tuple ps))).result = .ok ps →
      (accept kind (.value (.tuple (rs.foldl (Request.participantsAfter kind) ps)))).result
        = .ok (rs.foldl (Request.participantsAfter kind) ps) := by
    induction rs with
    | nil => exact fun ps hps => hps
    | cons r rs ih =>
      intro ps hps
      refine ih _ ?_
      cases r with
      | setParticipants source =>
        dsimp only [Request.participantsAfter]
        cases haccept : (accept kind source).result with
        | error e => exact hps
        | ok items =>
          obtain ⟨-, -, hrest⟩ := accept_eq_ok_iff.mp haccept
          exact accept_eq_ok_iff.mpr ⟨rfl, rfl, hrest⟩
      | _ => exact hps
  exact hagain [] rfl

end Moment

/-! ## 5. Legs that were handed out -/

/-- The request to the leg of a name. -/
def Request.forLeg (name : String) : Request → Option Leg.Request
  | .ofLeg other q => if other = name then some q else none
  | _ => none

/-- The name under which a leg is asked for. -/
def Request.asks : Request → Option String
  | .leg _ _ name => some name
  | _ => none

section HandedOut

variable {d : Desk} {place : Nat} {name : String} {leg : Leg}

/-- **What a request does to a desk**: it changes nothing but the planner, or makes new legs, or
makes new legs and hands out one of them under the name it asks for, or goes to the leg of a name
and changes that. -/
theorem desk_answer (r : Request) (d : Desk) :
    (∃ p, (answer r d).2 = { d with planner := p }) ∨
      (∃ p, (answer r d).2 = Desk.renew [] [] { d with planner := p }) ∨
      (∃ first mirrored name half, r.asks = some name ∧
        (answer r d).2 = (d.renew first mirrored).handOut name half) ∨
      ∃ name q place, r.forLeg name = some q ∧ d.kept.lookup name = some place ∧
        (answer r d).2 = d.put place (Leg.answer q (d.legAt place)).2 := by
  cases r with
  | participants | matchesPerLeg | sameLegs =>
    exact Or.inl ⟨d.planner, snd_answer_of_looks rfl d⟩
  | setParticipants source =>
    have h := answer_setParticipants source d
    split at h
    · exact Or.inl ⟨d.planner, h.2⟩
    · exact Or.inr (Or.inl ⟨_, h.2⟩)
  | set name v =>
    have h := answer_set name v d
    split at h
    · exact Or.inl ⟨d.planner, by rw [h]⟩
    · exact Or.inl ⟨_, by rw [h]⟩
  | leg rule half name =>
    rw [snd_answer_leg]
    rcases (handOutLeg_cases rule half name d).2 with ⟨_, -, hsame⟩ | ⟨_, _, _, -, hsame⟩
    · exact Or.inl ⟨d.planner, hsame⟩
    · exact Or.inr (Or.inr (Or.inl ⟨_, _, name, _, rfl, hsame⟩))
  | ofLeg name q =>
    have h := answer_ofLeg name q d
    split at h
    · exact Or.inl ⟨d.planner, h⟩
    · rename_i place hplace
      exact Or.inr (Or.inr (Or.inr ⟨name, q, place, if_pos rfl, hplace, h.2⟩))

/-- **Desks stay tidy.** -/
theorem tidy_answer (h : d.Tidy) (r : Request) : (answer r d).2.Tidy := by
  rcases desk_answer r d with
    ⟨p, hr⟩ | ⟨p, hr⟩ | ⟨first, mirrored, name, half, -, hr⟩ | ⟨name, q, place, -, -, hr⟩
  · rw [hr]
    exact h.withPlanner p
  · rw [hr]
    exact (h.withPlanner p).renew [] []
  · rw [hr]
    exact h.handOut first mirrored name half
  · rw [hr]
    exact h.put place _

theorem tidy_run (h : d.Tidy) (rs : List Request) : (Session.run answer rs d).2.Tidy :=
  Session.keeps_run (I := Desk.Tidy) (fun r _ hd => tidy_answer hd r) rs h

/-- Legs are never removed. -/
theorem length_legs_answer (r : Request) (d : Desk) :
    d.legs.length ≤ (answer r d).2.legs.length := by
  rcases desk_answer r d with
    ⟨p, hr⟩ | ⟨p, hr⟩ | ⟨first, mirrored, name, half, -, hr⟩ | ⟨name, q, place, -, -, hr⟩
  · simp [hr]
  · simp [hr, Desk.renew]
  · simp [hr, Desk.renew, Desk.handOut]
  · simp [hr, Desk.put]

/-- A name stands for what it did unless a leg is asked for under it. -/
theorem lookup_answer {r : Request} (hasks : r.asks ≠ some name) (d : Desk) :
    (answer r d).2.kept.lookup name = d.kept.lookup name := by
  rcases desk_answer r d with
    ⟨p, hr⟩ | ⟨p, hr⟩ | ⟨first, mirrored, other, half, hother, hr⟩ | ⟨other, q, place, -, -, hr⟩
  · rw [hr]
  · rw [hr]
    rfl
  · have hne : name ≠ other := fun hname => hasks (hname ▸ hother)
    rw [hr, Desk.lookup_handOut, if_neg hne]
    rfl
  · rw [hr]
    rfl

/-- No name is given to a leg that was made earlier. -/
theorem lookup_of_lookup_answer (hplace : place < d.legs.length) {r : Request}
    (hname : (answer r d).2.kept.lookup name = some place) : d.kept.lookup name = some place := by
  rcases desk_answer r d with
    ⟨p, hr⟩ | ⟨p, hr⟩ | ⟨first, mirrored, other, half, -, hr⟩ | ⟨other, q, i, -, -, hr⟩
  · rwa [hr] at hname
  · rwa [hr] at hname
  · rw [hr, Desk.lookup_handOut] at hname
    split at hname
    · have hnew := d.ownPlace_renew first mirrored half
      cases hname
      omega
    · exact hname
  · rwa [hr] at hname

/-- **A request changes no leg** but the one it goes to. -/
theorem legAt_answer (hplace : place < d.legs.length) {r : Request}
    (hfor : ∀ name, d.kept.lookup name = some place → r.forLeg name = none) :
    (answer r d).2.legAt place = d.legAt place := by
  rcases desk_answer r d with
    ⟨p, hr⟩ | ⟨p, hr⟩ | ⟨first, mirrored, name, half, -, hr⟩ | ⟨name, q, i, hq, hi, hr⟩
  · rw [hr]
    rfl
  · rw [hr]
    exact Desk.legAt_renew hplace
  · rw [hr]
    exact Desk.legAt_renew hplace
  · rw [hr]
    refine Desk.legAt_put_of_ne ?_
    rintro rfl
    rw [hfor name hi] at hq
    cases hq

/-- **What no request goes to stays as it is**: a leg is the same after any requests of which none
goes to a name of its own. A leg that lost its name to a later one has none. -/
theorem legAt_run (hplace : place < d.legs.length) {rs : List Request}
    (hfor : ∀ r ∈ rs, ∀ name, d.kept.lookup name = some place → r.forLeg name = none) :
    (Session.run answer rs d).2.legAt place = d.legAt place := by
  induction rs generalizing d with
  | nil => rfl
  | cons r rs ih =>
    calc (Session.run answer rs (answer r d).2).2.legAt place
        = (answer r d).2.legAt place :=
          ih (Nat.lt_of_lt_of_le hplace (length_legs_answer r d)) fun q hq name hname =>
            hfor q (List.mem_cons_of_mem r hq) name (lookup_of_lookup_answer hplace hname)
      _ = d.legAt place := legAt_answer hplace (hfor r List.mem_cons_self)

/-- **A request that does not go to a leg leaves the leg alone.** -/
theorem leg?_answer (h : d.Tidy) (hleg : d.leg? name = .ok leg) {r : Request}
    (hasks : r.asks ≠ some name) (hfor : r.forLeg name = none) :
    (answer r d).2.leg? name = .ok leg := by
  obtain ⟨place, hplace, rfl⟩ := Desk.leg?_eq_ok_iff.mp hleg
  refine Desk.leg?_eq_ok_iff.mpr ⟨place, (lookup_answer hasks d).trans hplace, ?_⟩
  refine legAt_answer (h.inRange name place hplace) fun other hother => ?_
  rwa [h.apart other name place hother hplace]

/-- **A request to a leg** does to it what it does to any leg like that. -/
theorem leg?_answer_ofLeg (h : d.Tidy) (hleg : d.leg? name = .ok leg) (q : Leg.Request) :
    (answer (.ofLeg name q) d).2.leg? name = .ok (Leg.answer q leg).2 := by
  obtain ⟨place, hplace, rfl⟩ := Desk.leg?_eq_ok_iff.mp hleg
  have hcases := answer_ofLeg name q d
  rw [hplace] at hcases
  rw [hcases.2]
  exact h.leg?_put hplace _

/-- **A leg that is handed out** is what the planner makes of the request. -/
theorem result_answer_leg {rule half : Value} :
    (answer (.leg rule half name) d).1.result = .ok (.leg (.leg leg)) ↔
      (d.planner.leg rule half).result = .ok leg := by
  rw [fst_answer_leg, Outcome.bind_eq_ok]
  constructor
  · rintro ⟨leg', hleg, h⟩
    cases h
    exact hleg
  · exact fun hleg => ⟨leg, hleg, rfl⟩

/-- It is kept under its name. -/
theorem leg?_answer_leg {rule half : Value} (h : (d.planner.leg rule half).result = .ok leg) :
    (answer (.leg rule half name) d).2.leg? name = .ok leg := by
  rw [snd_answer_leg]
  rcases (handOutLeg_cases rule half name d).2 with ⟨_, herror, -⟩ | ⟨_, _, _, hok, hsame⟩
  · rw [herror] at h
    cases h
  · rw [hok] at h
    cases h
    rw [hsame]
    exact Desk.leg?_handOut _ _ _

/-- **What becomes of a leg is told by the requests to it**, as long as no other leg is asked for
under its name. -/
theorem leg?_run (h : d.Tidy) (hleg : d.leg? name = .ok leg) {rs : List Request}
    (hasks : ∀ r ∈ rs, r.asks ≠ some name) :
    (Session.run answer rs d).2.leg? name
      = .ok (Session.run Leg.answer (rs.filterMap (·.forLeg name)) leg).2 := by
  induction rs generalizing d leg with
  | nil => exact hleg
  | cons r rs ih =>
    have hrest : ∀ r ∈ rs, r.asks ≠ some name := fun q hq => hasks q (List.mem_cons_of_mem r hq)
    cases hfor : r.forLeg name with
    | none =>
      rw [List.filterMap_cons_none hfor]
      exact ih (tidy_answer h r) (leg?_answer h hleg (hasks r List.mem_cons_self) hfor) hrest
    | some q =>
      rw [List.filterMap_cons_some hfor]
      cases r with
      | ofLeg other q' =>
        rw [Request.forLeg] at hfor
        split at hfor
        · rename_i hname
          cases hfor
          subst hname
          exact ih (tidy_answer h (.ofLeg other q)) (leg?_answer_ofLeg h hleg q) hrest
        · cases hfor
      | _ => cases hfor

end HandedOut

/-! ## 6. Whole sessions -/

/-- **Sessions are forgotten.**  After any requests to a planner, whether they succeeded or not, it
has the settings of the moment and the participants accepted last; and the next request for a leg is
answered, with a leg or a fault, as by a new planner with the same settings that has just accepted
these participants.  A request that fails changes nothing.  No leg that was ever made is changed by
requests of which none goes to it under a name of its own; and a leg that is handed out is, as long
as it has its name, what the requests under this name make of it. -/
theorem sessions_are_forgotten (kind refereeKind : Kind) (settings : Settings)
    (rs : List Request) :
    ∃ d e : Desk, (Session.run answer rs (.opened ⟨kind, refereeKind, settings, []⟩)).2 = d ∧
      d.planner = ⟨kind, refereeKind, settingsOfMoment settings rs, lastAccepted kind rs⟩ ∧
      Action.Runs (answer (.setParticipants (.value (.tuple (lastAccepted kind rs)))))
        (.opened ⟨kind, refereeKind, settingsOfMoment settings rs, []⟩)
        (.values (lastAccepted kind rs)) e ∧
      (∀ rule half name,
        (answer (.leg rule half name) d).1 = (answer (.leg rule half name) e).1) ∧
      (∀ r fault, (answer r d).1.result = .error fault → (answer r d).2 = d) ∧
      (∀ place < d.legs.length, ∀ qs : List Request,
        (∀ q ∈ qs, ∀ name, d.kept.lookup name = some place → q.forLeg name = none) →
          (Session.run answer qs d).2.legAt place = d.legAt place) ∧
      (∀ rule half name leg,
        (answer (.leg rule half name) d).1.result = .ok (.leg (.leg leg)) →
        ∀ qs : List Request, (∀ q ∈ qs, q.asks ≠ some name) →
          (Session.run answer qs (answer (.leg rule half name) d).2).2.leg? name
            = .ok (Session.run Leg.answer (qs.filterMap (·.forLeg name)) leg).2) := by
  have htidy := tidy_run (Desk.tidy_opened ⟨kind, refereeKind, settings, []⟩) rs
  have hplanner : (Session.run answer rs (.opened ⟨kind, refereeKind, settings, []⟩)).2.planner
      = ⟨kind, refereeKind, settingsOfMoment settings rs, lastAccepted kind rs⟩ :=
    planner_run rfl rs
  generalize (Session.run answer rs (.opened ⟨kind, refereeKind, settings, []⟩)).2 = d
    at htidy hplanner
  have hfresh := answer_setParticipants (.value (.tuple (lastAccepted kind rs)))
    (.opened ⟨kind, refereeKind, settingsOfMoment settings rs, []⟩)
  dsimp only [Desk.opened] at hfresh
  rw [accept_lastAccepted] at hfresh
  refine ⟨d, _, rfl, hplanner, hfresh, fun rule half name => ?_, fun r => atomic_answer r d,
    fun place hplace qs => legAt_run hplace, ?_⟩
  · rw [fst_answer_leg, fst_answer_leg, hplanner]
    rfl
  · intro rule half name leg hleg qs hqs
    rw [fst_answer_leg, Outcome.result_bind] at hleg
    have htidy' := tidy_answer htidy (.leg rule half name)
    rw [snd_answer_leg] at htidy' ⊢
    rcases (handOutLeg_cases rule half name d).2 with ⟨_, herror, -⟩ | ⟨_, _, _, hok, hsame⟩
    · rw [herror] at hleg
      cases hleg
    · rw [hok] at hleg
      cases hleg
      refine leg?_run htidy' ?_ hqs
      rw [hsame]
      exact Desk.leg?_handOut _ _ _

end Planner
end Matchday
