/-
# The same order under other names

A sequencer compares turns, and it compares players.  Nothing else about them has a part in what it
does, so turns and players under other names are put in the same order, and the same matches are
swapped (`inStep_sequence`).  Players may be missing among the participants, and then the request
fails in the same place with the same fault.

The names have to be told apart like the ones before and to be equal when these are, and all of them
have to serve as keys (`Names`).  Nothing has a part of its own: where the turn picked is nothing,
the question for it counts as not answered.  So no other turn may be called that.

The three questions have the renamed answers, each by itself, and so the same turn is picked
(`nextTurn?_map`).  The decisions about matches are the same (`decides_map`), and so the same matches
are swapped (`inStep_shorten`).  Step by step, what is done under other names keeps in step.
-/
import Mathlib.Data.List.Find
import Matchday.Proofs.Renaming
import Matchday.Proofs.Sequencer.Sessions

namespace Matchday.Sequencer

/-! ## 1. Names -/

/-- Other names for turns and for players.  They are told apart like the ones before, they are equal
when these are, they serve as keys like the ones before, and nothing but nothing is called nothing.
-/
structure Names (T P : Value → Prop) (f g : Value → Value) : Prop where
  turns : TellsApart T f
  turns_equal : KeepsEqual T f
  players : TellsApart P g
  players_equal : KeepsEqual P g
  turn_key : ∀ t, T t → t.isKey = true ∧ (f t).isKey = true
  player_key : ∀ p, P p → p.isKey = true ∧ (g p).isKey = true
  turn_none : ∀ t, T t → (f t = .none ↔ t = .none)

/-- All turns and all players of the matches are among the given ones. -/
def Within (T P : Value → Prop) (ms : List Fixture) : Prop :=
  ∀ m ∈ ms, T m.turn ∧ P m.home ∧ P m.guest

/-- A sheet under other names. -/
def renamedSheet (f g : Value → Value) (sheet : Sheet) : Sheet :=
  { sheet with fixtures := sheet.fixtures.map (·.map f g) }

/-- A sequencer under other names. -/
def renamed (f g : Value → Value) (s : Sequencer) : Sequencer :=
  { s with
    participants := s.participants.map g
    source := renamedSheet f g s.source
    working := renamedSheet f g s.working
    placed := s.placed.map f
    result := s.result.map (·.map f g) }

variable {T P : Value → Prop} {f g : Value → Value} {ms ns : List Fixture} {s : Sequencer}

/-- What a pass comes to, under other names. -/
def renamedPass (f g : Value → Value) (p : Pass) : Pass :=
  ⟨p.working.map (·.map f g), p.swapped.map (·.map f g), p.fault⟩

/-- All turns and all players that a sequencer has to do with are among the given ones, and its
working copy consists of matches. -/
structure NamedIn (T P : Value → Prop) (s : Sequencer) : Prop where
  participants : ∀ p ∈ s.participants, P p
  working : Within T P s.working.fixtures
  read : s.working.unread = []
  placed : ∀ t ∈ s.placed, T t
  result : Within T P s.result

theorem prefersApart_renamed : (renamed f g s).prefersApart = s.prefersApart := rfl

theorem shortensStreaks_renamed : (renamed f g s).shortensStreaks = s.shortensStreaks := rfl

theorem fixtures_renamed :
    (renamed f g s).working.fixtures = s.working.fixtures.map (·.map f g) := rfl

namespace Within

theorem turn (hms : Within T P ms) : ∀ m ∈ ms, T m.turn := fun m hm => (hms m hm).1

theorem players (hms : Within T P ms) : ∀ m ∈ ms, P m.home ∧ P m.guest := fun m hm => (hms m hm).2

theorem isTurn (hms : Within T P ms) : ∀ t ∈ Schedule.turns ms, T t := by
  intro t ht
  obtain ⟨m, hm, rfl⟩ := List.mem_map.mp ((eraseDups_sublist _).subset ht)
  exact (hms m hm).1

theorem ofTurn (hms : Within T P ms) (t : Value) : Within T P (Schedule.ofTurn ms t) :=
  fun m hm => hms m (List.mem_of_mem_filter hm)

/-- Whoever is at home in a turn is a player. -/
theorem homeTeam (hms : Within T P ms) (t : Value) : ∀ p ∈ NextTurn.homeTeam ms t, P p := by
  intro p hp
  obtain ⟨m, hm, rfl⟩ := List.mem_map.mp hp
  exact (hms.ofTurn t m hm).2.1

/-- Whoever plays in a turn is a player. -/
theorem present (hms : Within T P ms) (t : Value) : ∀ p ∈ NextTurn.present ms t, P p := by
  intro p hp
  rcases List.mem_append.mp hp with hp | hp <;> obtain ⟨m, hm, rfl⟩ := List.mem_map.mp hp
  · exact (hms.ofTurn t m hm).2.1
  · exact (hms.ofTurn t m hm).2.2

theorem turned (hms : Within T P ms) (h : Turned ms ns) : Within T P ns := by
  intro n hn
  obtain ⟨m, hm, rfl | rfl⟩ := h.exists_of_mem hn
  · exact hms n hm
  · exact ⟨(hms m hm).1, (hms m hm).2.symm⟩

end Within

namespace Names

/-! ## 2. Picking the next turn -/

section Picking

variable (h : Names T P f g)
include h

/-- The renamed turns are the turns of the renamed schedule. -/
theorem turns_map (hms : Within T P ms) :
    Schedule.turns (ms.map (·.map f g)) = (Schedule.turns ms).map f := by
  refine Schedule.turns_map ?_
  rintro _ ⟨m, hm, rfl⟩ _ ⟨n, hn, rfl⟩
  exact h.turns (hms.turn m hm) (hms.turn n hn)

theorem ofTurn_map (hms : Within T P ms) {t : Value} (ht : T t) :
    Schedule.ofTurn (ms.map (·.map f g)) (f t) = (Schedule.ofTurn ms t).map (·.map f g) :=
  Schedule.ofTurn_map h.turns_equal hms.turn ht

/-- The renamed turns are open. -/
theorem openTurns_map (hms : Within T P ms) {placed : List Value} (hplaced : ∀ t ∈ placed, T t) :
    NextTurn.openTurns (ms.map (·.map f g)) (placed.map f)
      = (NextTurn.openTurns ms placed).map f := by
  rw [NextTurn.openTurns, h.turns_map hms, List.filter_map]
  refine congrArg (List.map f) (List.filter_congr fun t ht => ?_)
  rw [Function.comp_apply, h.turns.contains_map hplaced (hms.isTurn t ht)]

theorem homeTeam_map (hms : Within T P ms) {t : Value} (ht : T t) :
    NextTurn.homeTeam (ms.map (·.map f g)) (f t) = (NextTurn.homeTeam ms t).map g := by
  rw [NextTurn.homeTeam, h.ofTurn_map hms ht, Schedule.homes, List.map_map, NextTurn.homeTeam,
    Schedule.homes, List.map_map]
  rfl

theorem present_map (hms : Within T P ms) {t : Value} (ht : T t) :
    NextTurn.present (ms.map (·.map f g)) (f t) = (NextTurn.present ms t).map g := by
  simp only [NextTurn.present, h.ofTurn_map hms ht, List.map_append, List.map_map]
  rfl

/-- Streaks that are still open are the same. -/
theorem current_map (hms : Within T P ms) (r : Role) {p : Value} (hp : P p) :
    Streak.current r (g p) (ms.map (·.map f g)) = Streak.current r p ms := by
  rw [Streak.current, Streak.lengths_map (fun _ hx => h.players_equal hx hp) hms.players r,
    Streak.current]

section Team

variable {team : List Value} {t : Value} (hms : Within T P ms) (hteam : ∀ p ∈ team, P p) (ht : T t)
include hms hteam ht

/-- The same turns are apart from the team. -/
theorem isApart_map : NextTurn.isApart (team.map g) (ms.map (·.map f g)) (f t)
    = NextTurn.isApart team ms t := by
  rw [NextTurn.isApart, h.ofTurn_map hms ht, List.all_map, NextTurn.isApart, Bool.eq_iff_iff,
    List.all_eq_true, List.all_eq_true]
  refine forall₂_congr fun m hm => ?_
  obtain ⟨-, hhome, hguest⟩ := hms.ofTurn t m hm
  rw [Function.comp_apply, NextTurn.splits, Match.map, h.players.contains_map hteam hhome,
    h.players.contains_map hteam hguest, NextTurn.splits]

/-- As many of the team are guests. -/
theorem visiting_map : NextTurn.visiting (team.map g) (ms.map (·.map f g)) (f t)
    = NextTurn.visiting team ms t := by
  rw [NextTurn.visiting, h.ofTurn_map hms ht, List.countP_map, NextTurn.visiting]
  refine List.countP_congr fun m hm => ?_
  rw [Function.comp_apply, Match.map, h.players.contains_map hteam (hms.ofTurn t m hm).2.2]

/-- As many streaks are continued. -/
theorem carried_map : NextTurn.carried (team.map g) (ms.map (·.map f g)) (f t)
    = NextTurn.carried team ms t := by
  simp only [NextTurn.carried, h.ofTurn_map hms ht, List.foldr_map]
  induction team with
  | nil => rfl
  | cons p team ih =>
    have hp := hteam p List.mem_cons_self
    rw [List.foldr_cons, List.foldr_cons, ih fun q hq => hteam q (List.mem_cons_of_mem p hq),
      h.current_map (hms.ofTurn t) _ hp, h.current_map (hms.ofTurn t) _ hp]

end Team

/-- An answer that counts does so under its other name. -/
theorem named_map {answer : Option Value} (hanswer : ∀ t, answer = some t → T t) :
    named (answer.map f) = (named answer).map f := by
  cases answer with
  | none => rfl
  | some t =>
    have hnone := h.turn_none t (hanswer t rfl)
    by_cases ht : t = .none
    · rw [Option.map_some, hnone.mpr ht, ht]
      rfl
    · have hcounts : ∀ u : Value, u ≠ .none → named (some u) = some u := by
        intro u hu
        cases u with
        | none => exact absurd rfl hu
        | _ => rfl
      rw [Option.map_some, hcounts _ fun hft => ht (hnone.mp hft), hcounts t ht, Option.map_some]

section Questions

variable {last : Value} {turns : List Value} (hms : Within T P ms) (hlast : T last)
  (hturns : ∀ t ∈ turns, T t)
include hms hlast hturns

/-- The same turn is apart from the last one. -/
theorem find?_isApart_map :
    (turns.map f).find? (NextTurn.isApart (NextTurn.homeTeam (ms.map (·.map f g)) (f last))
        (ms.map (·.map f g)))
      = (turns.find? (NextTurn.isApart (NextTurn.homeTeam ms last) ms)).map f := by
  rw [List.find?_map, h.homeTeam_map hms hlast]
  exact congrArg (Option.map f) (List.find?_congr fun t ht =>
    h.isApart_map hms (hms.homeTeam last) (hturns t ht))

/-- The same turn has the most of those at home last as guests. -/
theorem mostVisiting?_map : NextTurn.mostVisiting? (ms.map (·.map f g)) (f last) (turns.map f)
    = (NextTurn.mostVisiting? ms last turns).map f := by
  have hvisiting : ∀ t ∈ turns, NextTurn.visiting ((NextTurn.homeTeam ms last).map g)
      (ms.map (·.map f g)) (f t) = NextTurn.visiting (NextTurn.homeTeam ms last) ms t :=
    fun t ht => h.visiting_map hms (hms.homeTeam last) (hturns t ht)
  have hfilter : (turns.map f).filter (0 < NextTurn.visiting ((NextTurn.homeTeam ms last).map g)
        (ms.map (·.map f g)) ·)
      = (turns.filter (0 < NextTurn.visiting (NextTurn.homeTeam ms last) ms ·)).map f := by
    rw [List.filter_map]
    refine congrArg (List.map f) (List.filter_congr fun t ht => ?_)
    rw [Function.comp_apply, hvisiting t ht]
  simp only [NextTurn.mostVisiting?, h.homeTeam_map hms hlast, hfilter]
  exact Pick.greatest_map fun t ht => hvisiting t (List.mem_of_mem_filter ht)

/-- The same turn continues the fewest streaks. -/
theorem leastCarried?_map : NextTurn.leastCarried? (ms.map (·.map f g)) (f last) (turns.map f)
    = (NextTurn.leastCarried? ms last turns).map f := by
  rw [NextTurn.leastCarried?, h.present_map hms hlast]
  exact Pick.least_map fun t ht => h.carried_map hms (hms.present last) (hturns t ht)

end Questions

/-- **The same turn is picked.** -/
theorem nextTurn?_map (hms : Within T P s.working.fixtures) (hplaced : ∀ t ∈ s.placed, T t)
    {last : Value} (hlast : T last) :
    (renamed f g s).nextTurn? (f last) = (s.nextTurn? last).map (Option.map f) := by
  have hopen : NextTurn.openTurns (renamed f g s).working.fixtures (renamed f g s).placed
      = (NextTurn.openTurns s.working.fixtures s.placed).map f := h.openTurns_map hms hplaced
  have hturns : ∀ t ∈ NextTurn.openTurns s.working.fixtures s.placed, T t :=
    fun t ht => hms.isTurn t (List.mem_of_mem_filter ht)
  have hkey' : ∀ m ∈ (renamed f g s).working.fixtures,
      m.home.isKey = true ∧ m.guest.isKey = true := by
    intro m' hm'
    obtain ⟨m, hm, rfl⟩ := List.mem_map.mp hm'
    exact ⟨(h.player_key _ (hms m hm).2.1).2, (h.player_key _ (hms m hm).2.2).2⟩
  rw [nextTurn?_eq hkey', hopen, nextTurn?_eq fun m hm =>
    ⟨(h.player_key _ (hms m hm).2.1).1, (h.player_key _ (hms m hm).2.2).1⟩]
  generalize NextTurn.openTurns s.working.fixtures s.placed = turns at hturns
  have hapart := h.find?_isApart_map hms hlast hturns
  have hvisiting := h.mostVisiting?_map hms hlast hturns
  have hcarried := h.leastCarried?_map hms hlast hturns
  have hswitch : ∀ answer : Option Value, (if s.prefersApart then answer.map f else none)
      = (if s.prefersApart then answer else none).map f := by
    intro answer
    split <;> rfl
  have horElse : ∀ x y : Option Value, (x <|> y).map f = (x.map f <|> y.map f) := by
    intro x y
    cases x <;> rfl
  rw [prefersApart_renamed, fixtures_renamed, hapart, hvisiting, hcarried, List.head?_map, hswitch,
    h.named_map, h.named_map, h.named_map, ← horElse, ← horElse, ← horElse]
  · rfl
  · exact fun t ht => hturns t (NextTurn.mem_of_leastCarried? ht)
  · exact fun t ht => hturns t (NextTurn.mem_of_mostVisiting? ht)
  · intro t ht
    split at ht
    · exact hturns t (List.mem_of_find?_eq_some ht)
    · cases ht

end Picking

/-! ## 3. Swapping -/

section Swapping

variable (h : Names T P f g)
include h

theorem form_map (hms : Within T P ms) {p : Value} (hp : P p) :
    form (ms.map (·.map f g)) (g p) = form ms p := by
  rw [form, h.current_map hms _ hp, h.current_map hms _ hp, form]

/-- The same players are known, and their streaks are the same. -/
theorem formOf_map {ps : List Value} (hps : ∀ p ∈ ps, P p) (hms : Within T P ms) {p : Value}
    (hp : P p) : formOf (ps.map g) (ms.map (·.map f g)) (g p) = formOf ps ms p := by
  rw [formOf, formOf, Value.asKey_of_isKey (h.player_key p hp).1,
    Value.asKey_of_isKey (h.player_key p hp).2, h.players.contains_map hps hp, h.form_map hms hp]

/-- The same roles are repeated. -/
theorem repeatsRole_map {placed : List Value} (hplaced : ∀ t ∈ placed, T t) (hms : Within T P ms)
    {m : Fixture} (hm : P m.home ∧ P m.guest) :
    repeatsRole (placed.map f) (ms.map (·.map f g)) (m.map f g) = repeatsRole placed ms m := by
  unfold repeatsRole
  rw [List.getLast?_map]
  cases hlast : placed.getLast? with
  | none => rfl
  | some last =>
    have hturn := hms.ofTurn last
    have hany : ∀ {role : Fixture → Value} {p : Value}, (∀ n, role (n.map f g) = g (role n)) →
        (∀ n ∈ Schedule.ofTurn ms last, P (role n)) → P p →
        ((Schedule.ofTurn ms last).map (·.map f g)).any (fun n => equals (role n) (g p))
          = (Schedule.ofTurn ms last).any (fun n => equals (role n) p) := by
      intro role p hrole hmem hp
      rw [List.any_map, Bool.eq_iff_iff, List.any_eq_true, List.any_eq_true]
      refine exists_congr fun n => and_congr_right fun hn => ?_
      rw [Function.comp_apply, hrole, h.players_equal (hmem n hn) hp]
    dsimp only [Option.map_some]
    rw [h.ofTurn_map hms (hplaced last (List.mem_of_getLast? hlast))]
    exact congrArg Except.ok (congrArg₂ (· || ·)
      (hany (fun _ => rfl) (fun n hn => (hturn n hn).2.1) hm.1)
      (hany (fun _ => rfl) (fun n hn => (hturn n hn).2.2) hm.2))

/-- **The same decisions are made.** -/
theorem decides_map (hs : NamedIn T P s) (hms : Within T P ms) {m : Fixture}
    (hm : P m.home ∧ P m.guest) :
    (renamed f g s).decides (ms.map (·.map f g)) (m.map f g) = s.decides ms m := by
  have hhome := h.formOf_map hs.participants hs.result hm.1
  have hguest := h.formOf_map hs.participants hs.result hm.2
  have hrepeats := h.repeatsRole_map hs.placed hms hm
  unfold decides
  dsimp only [renamed, Match.map] at hhome hguest hrepeats ⊢
  rw [hhome, hguest, hrepeats]

/-- A pass swaps the same matches, as long as the same decisions are made. -/
theorem swapTurn_map {wants wants' : List Fixture → Fixture → Except Fault Bool}
    (hwants : ∀ ns, Within T P ns → ∀ m ∈ ns,
      wants' (ns.map (·.map f g)) (m.map f g) = wants ns m)
    {t : Value} (ht : T t) {before : List Fixture} (hbefore : Within T P before)
    (hms : Within T P ms) :
    swapTurn wants' (f t) (before.map (·.map f g)) (ms.map (·.map f g))
      = renamedPass f g (swapTurn wants t before ms) := by
  induction ms generalizing before with
  | nil => rfl
  | cons m ms ih =>
    have hm := hms m List.mem_cons_self
    have hrest : Within T P ms := fun n hn => hms n (List.mem_cons_of_mem m hn)
    have hall : Within T P (before.reverse ++ m :: ms) := by
      intro n hn
      rcases List.mem_append.mp hn with hn | hn
      · exact hbefore n (List.mem_reverse.mp hn)
      · exact hms n hn
    have hwants := hwants _ hall m (List.mem_append_right _ List.mem_cons_self)
    rw [List.map_append, List.map_reverse, List.map_cons] at hwants
    have hturn : equals (m.map f g).turn (f t) = equals m.turn t := h.turns_equal hm.1 ht
    have hcons : ∀ (swap : Bool) (p : Pass),
        (renamedPass f g p).cons (m.map f g) swap = renamedPass f g (p.cons m swap) := by
      intro swap p
      cases swap <;> rfl
    have hnext : ∀ swap : Bool, Within T P ((if swap then m.swapped else m) :: before) := by
      intro swap n hn
      rcases List.mem_cons.mp hn with rfl | hn
      · cases swap
        · exact hm
        · exact ⟨hm.1, hm.2.symm⟩
      · exact hbefore n hn
    have hstep : ∀ swap : Bool,
        swapTurn wants' (f t)
            ((if swap then (m.map f g).swapped else m.map f g) :: before.map (·.map f g))
            (ms.map (·.map f g))
          = renamedPass f g (swapTurn wants t ((if swap then m.swapped else m) :: before) ms) := by
      intro swap
      rw [← ih (hnext swap) hrest, List.map_cons]
      cases swap <;> rfl
    rw [List.map_cons, swapTurn, swapTurn, hturn, hwants]
    split
    · split
      · rfl
      · rename_i swap _
        rw [hstep swap, hcons]
    · have hsame := hstep false
      simp only [Bool.false_eq_true, if_false] at hsame
      rw [hsame, hcons]

/-- **The same matches are swapped.** -/
theorem pass_map (hs : NamedIn T P s) {t : Value} (ht : T t) :
    (renamed f g s).pass (f t) = renamedPass f g (s.pass t) := by
  have hnil : Within T P [] := fun _ hm => absurd hm List.not_mem_nil
  have hswap : swapTurn (renamed f g s).decides (f t) [] (s.working.fixtures.map (·.map f g))
      = renamedPass f g (swapTurn s.decides t [] s.working.fixtures) :=
    h.swapTurn_map (fun ns hns m hm => h.decides_map hs hns (hns.players m hm)) ht hnil hs.working
  unfold pass
  rw [fixtures_renamed, hswap]
  have hread : (renamed f g s).working.unread.isEmpty = s.working.unread.isEmpty := rfl
  rw [hread]
  generalize swapTurn s.decides t [] s.working.fixtures = p
  obtain ⟨working, swapped, fault⟩ := p
  cases fault with
  | some e => rfl
  | none =>
    dsimp only [renamedPass]
    split <;> rfl

/-- **Swapping in a turn keeps in step.** -/
theorem inStep_shorten (hs : NamedIn T P s) {t : Value} (ht : T t) :
    Action.InStep (renamed f g) id (shorten t) (shorten (f t)) s := by
  have hplaced : (renamed f g s).placed.length = s.placed.length := List.length_map _
  have hkeys : s.participants.mapM Value.asKey = .ok (s.participants.map fun _ => ()) :=
    mapM_asKey fun p hp => (h.player_key p (hs.participants p hp)).1
  have hkeys' : (renamed f g s).participants.mapM Value.asKey
      = .ok ((renamed f g s).participants.map fun _ => ()) := by
    refine mapM_asKey fun q hq => ?_
    obtain ⟨p, hp, rfl⟩ := List.mem_map.mp hq
    exact (h.player_key p (hs.participants p hp)).2
  have hfault : ((renamed f g s).pass (f t)).fault = (s.pass t).fault := by
    rw [h.pass_map hs ht]
    rfl
  constructor
  · rw [result_shorten, result_shorten, hplaced, hkeys, hkeys', hfault]
    dsimp only
    split
    · rfl
    · split <;> rfl
  · rw [snd_shorten, snd_shorten, hplaced, hkeys, hkeys']
    dsimp only
    split
    · rfl
    · rw [h.pass_map hs ht]
      rfl

end Swapping

/-! ## 4. Placing turns -/

section Placing

variable {ps : List Value} (h : Names T P f g) (hps : ∀ p ∈ ps, P p) (hms : Within T P ms)
include h

theorem isKey_players (hms : Within T P ms) :
    ∀ m ∈ ms, m.home.isKey = true ∧ m.guest.isKey = true :=
  fun m hm => ⟨(h.player_key _ (hms m hm).2.1).1, (h.player_key _ (hms m hm).2.2).1⟩

/-- Placing a turn keeps in step. -/
theorem place_renamed (hs : Within T P s.working.fixtures) {t : Value} (ht : T t) :
    place (f t) (renamed f g s) = renamed f g (place t s) := by
  unfold place
  rw [fixtures_renamed, h.ofTurn_map hs ht]
  dsimp only [renamed]
  rw [List.map_append, List.map_append, List.map_singleton]

include hps hms

omit h in
/-- While the turns of a schedule are placed, its names are the only ones. -/
theorem namedIn_of_underway (hs : Underway ps ms s) : NamedIn T P s where
  participants := hs.participants ▸ hps
  working := hms.turned hs.turned.turned
  read := hs.read
  placed := fun t ht => hms.isTurn t (hs.ofSchedule t ht)
  result := by
    intro m hm
    rw [hs.result] at hm
    obtain ⟨t, -, hm⟩ := List.mem_flatMap.mp hm
    exact (hms.turned hs.turned.turned).ofTurn t m hm

/-- **A step keeps in step.** -/
theorem inStep_placeNext (hs : Underway ps ms s) :
    Action.InStep (renamed f g) id placeNext placeNext s := by
  have hnamed := namedIn_of_underway hps hms hs
  have hkey := h.isKey_players hms
  unfold placeNext
  refine Action.inStep_bind Action.inStep_state fun _ _ hruns => ?_
  obtain ⟨rfl, rfl⟩ := Action.runs_state.mp hruns
  have hlast : (renamed f g s).placed.getLast? = s.placed.getLast?.map f := List.getLast?_map
  rw [hlast]
  cases hlast : s.placed.getLast? with
  | none => exact Action.inStep_pure ()
  | some last =>
    have hT : T last := hnamed.placed last (List.mem_of_getLast? hlast)
    refine Action.inStep_bind (Action.inStep_lift
      (h.nextTurn?_map hnamed.working hnamed.placed hT)) fun answer _ hruns => ?_
    obtain ⟨hpicked, rfl⟩ := Action.runs_lift.mp hruns
    cases answer with
    | none => exact Action.inStep_pure ()
    | some t =>
      have ht : T t := hms.isTurn t (hs.of_picked hkey hpicked).1
      have hrest : ∀ s' : Sequencer, Within T P s'.working.fixtures →
          Action.InStep (renamed f g) id
            (do
              Outcome.writeAll [placingRecord t last]
              Action.change (place t))
            (do
              Outcome.writeAll [placingRecord (f t) (f last)]
              Action.change (place (f t))) s' := by
        intro s' hs'
        refine Action.inStep_bind (Action.inStep_lift (r := id) rfl) fun _ _ hruns => ?_
        obtain ⟨-, rfl⟩ := Action.runs_lift.mp hruns
        exact Action.inStep_change (h.place_renamed hs' ht)
      dsimp only [Option.map_some]
      rw [shortensStreaks_renamed]
      split
      · refine Action.inStep_bind (h.inStep_shorten hnamed ht) fun _ s' hruns => ?_
        obtain rfl := hruns.2
        exact hrest _ (hms.turned (hs.shorten hkey hpicked).2.turned.turned)
      · exact hrest s hnamed.working

/-- **However many turns are to be placed**, the runs keep in step. -/
theorem inStep_placeAll (k : Nat) (hs : Underway ps ms s) :
    Action.InStep (renamed f g) id (placeAll k) (placeAll k) s := by
  induction k generalizing s with
  | zero => exact Action.inStep_pure ()
  | succ k ih =>
    refine Action.inStep_bind (h.inStep_placeNext hps hms hs) fun _ s' hruns => ?_
    exact ih ((ends_placeNext (h.isKey_players hms) hs).of_runs hruns)

/-- **The order is the same under other names.**  The matches of the renamed schedule come in the
order of the matches they rename, and the same of them are swapped.  If the request fails it does so
with the same fault, and what is left corresponds as well. -/
theorem inStep_sequence (hparticipants : s.participants = ps) (hsource : s.source = .ofFixtures ms) :
    Action.InStep (renamed f g) (List.map (·.map f g)) sequence sequence s := by
  have hrestarted := underway_restarted hparticipants hsource
  have hturns : turnsOf s.source = .ok (Schedule.turns ms) := by
    rw [hsource]
    exact turnsOf_eq fun m hm => (h.turn_key _ (hms m hm).1).1
  have hturns' : turnsOf (renamed f g s).source = .ok ((Schedule.turns ms).map f) := by
    have hsource' : (renamed f g s).source = .ofFixtures (ms.map (·.map f g)) := by
      dsimp only [renamed, renamedSheet]
      rw [hsource]
      rfl
    rw [hsource', ← h.turns_map hms]
    refine turnsOf_eq fun m' hm' => ?_
    obtain ⟨m, hm, rfl⟩ := List.mem_map.mp hm'
    exact (h.turn_key _ (hms m hm).1).2
  unfold sequence
  refine Action.inStep_bind (Action.inStep_change (f := restarted) rfl) fun _ _ hruns => ?_
  obtain rfl := Action.runs_change.mp hruns
  refine Action.inStep_bind Action.inStep_state fun _ _ hruns => ?_
  obtain ⟨rfl, rfl⟩ := Action.runs_state.mp hruns
  have hstart : (Outcome.ofExcept (turnsOf (renamed f g s.restarted).source)).result
      = (Outcome.ofExcept (turnsOf s.restarted.source)).result.map (List.map f) := by
    dsimp only [Outcome.ofExcept]
    exact hturns'.trans (congrArg (Except.map (List.map f)) hturns).symm
  refine Action.inStep_bind (Action.inStep_lift hstart) fun turns _ hruns => ?_
  obtain ⟨hresult, rfl⟩ := Action.runs_lift.mp hruns
  cases hturns.symm.trans hresult
  cases hcases : Schedule.turns ms with
  | nil => exact Action.inStep_pure []
  | cons first rest =>
    have hmem : first ∈ Schedule.turns ms := by
      rw [hcases]
      exact List.mem_cons_self
    have hfirst : Underway ps ms (place first s.restarted) :=
      Consistent.place { hrestarted with turned := hrestarted.turned.mono fun _ => Or.inl } hmem
        fun u hu => absurd hu List.not_mem_nil
    have hplace := h.place_renamed (s := s.restarted)
      (hms.turned hrestarted.turned.turned) (hms.isTurn first hmem)
    refine Action.inStep_bind (Action.inStep_change hplace) fun _ _ hruns => ?_
    obtain rfl := Action.runs_change.mp hruns
    rw [List.length_map]
    refine Action.inStep_bind (h.inStep_placeAll hps hms rest.length hfirst) fun _ s' _ => ?_
    refine Action.inStep_bind Action.inStep_state fun _ _ hruns => ?_
    obtain ⟨rfl, rfl⟩ := Action.runs_state.mp hruns
    exact Action.inStep_bind (Action.inStep_lift (r := id) rfl) fun _ _ hruns => by
      obtain ⟨-, rfl⟩ := Action.runs_lift.mp hruns
      exact Action.inStep_pure _

end Placing

end Names

/-! ## 5. Whole-numbered turns -/

/-- Whole numbers under other numbers.  Anything else stays as it is. -/
def onWholes (u : Int → Int) : Value → Value
  | .int k => .int (u k)
  | v => v

/-- A participant, or a player of the schedule. -/
def IsName (ps : List Value) (ms : List Fixture) (p : Value) : Prop :=
  p ∈ ps ∨ ∃ m ∈ ms, p ∈ m.players

/-- **Schedules with whole-numbered turns are put in the same order**, whatever the numbers are and
whatever the players are called. -/
theorem result_sequence_map {ps : List Value} {u : Int → Int}
    (hturn : ∀ m ∈ ms, ∃ k, m.turn = .int k)
    (hu : ∀ j k, Schedule.IsTurn ms (.int j) → Schedule.IsTurn ms (.int k) → u j = u k → j = k)
    (hg : TellsApart (IsName ps ms) g) (hequal : KeepsEqual (IsName ps ms) g)
    (hkey : ∀ p, IsName ps ms p → p.isKey = true ∧ (g p).isKey = true)
    (prefersApart shortens : Bool) :
    (sequence (create (ps.map g) (.ofFixtures (ms.map (·.map (onWholes u) g)))
        prefersApart shortens)).1.result
      = (sequence (create ps (.ofFixtures ms) prefersApart shortens)).1.result.map
          (List.map (·.map (onWholes u) g)) := by
  have hwhole : ∀ t, Schedule.IsTurn ms t → ∃ k, t = .int k := by
    rintro _ ⟨m, hm, rfl⟩
    exact hturn m hm
  have hturns : TellsApart (Schedule.IsTurn ms) (onWholes u) := by
    intro s hs t ht
    obtain ⟨j, rfl⟩ := hwhole s hs
    obtain ⟨k, rfl⟩ := hwhole t ht
    rw [onWholes, onWholes, Value.beq_int, Value.beq_int, Bool.eq_iff_iff, beq_iff_eq, beq_iff_eq]
    exact ⟨hu j k hs ht, congrArg u⟩
  have hnames : Names (Schedule.IsTurn ms) (IsName ps ms) (onWholes u) g := by
    refine ⟨hturns, keepsEqual_of_tellsApart hturns ?_, hg, hequal, ?_, hkey, ?_⟩
    · intro t ht
      obtain ⟨k, rfl⟩ := hwhole t ht
      rw [onWholes, Value.equals_int, Value.equals_int, BEq.rfl, BEq.rfl]
    · intro t ht
      obtain ⟨k, rfl⟩ := hwhole t ht
      exact ⟨Value.isKey_int k, Value.isKey_int (u k)⟩
    · intro t ht
      obtain ⟨k, rfl⟩ := hwhole t ht
      exact ⟨nofun, nofun⟩
  have hwithin : Within (Schedule.IsTurn ms) (IsName ps ms) ms := fun m hm =>
    ⟨⟨m, hm, rfl⟩, Or.inr ⟨m, hm, List.mem_cons_self⟩,
      Or.inr ⟨m, hm, List.mem_cons_of_mem _ List.mem_cons_self⟩⟩
  exact (hnames.inStep_sequence (fun _ => Or.inl) hwithin
    (s := create ps (.ofFixtures ms) prefersApart shortens) rfl rfl).1

end Matchday.Sequencer
