/-
# Few participants

Six or fewer referees are too few for the argument by levels: with three of them ahead there need
not be enough left on the next level.  They are few enough to try everything out.  The matches of a
small round are known by place, from the circle or from an ideal table, and a sequencer leaves the
matches of a turn together and the first turn first.  So the duties of three to six places are
worked out for every such order of turns, and for all ways in which those who take the places may
be equal to themselves or not.  They stay even in all of them (`places_keepEven`,
`tables_keepEven`).

One match after the other is played on places, and given up as soon as duties are uneven (`play`).
The orders of turns are gone through turn by turn, so that what they have in common is played once
(`staysEvenFrom`).  Whatever is played through is what the referees do (`exists_duties_of_play`),
and it includes every order (`exists_play_of_perm`).
-/
import Matchday.Proofs.Rota.Places
import Matchday.Proofs.Tables

namespace Matchday.Rota

/-! ## 1. Playing on places -/

namespace Shares

/-- No place has had more than two duties more than another one. -/
def isEven (s : Shares) : Bool := s.counts.all fun c => s.counts.all fun d => c ≤ d + 2

/-- The shares after some matches between places, as long as they are even. -/
def play (es : List Bool) : List (Match Nat Nat) → Shares → Option Shares
  | [], s => some s
  | m :: ms, s =>
    match s.pick? es m.home m.guest with
    | none => none
    | some i => if (s.onDuty i).isEven then play es ms (s.onDuty i) else none

variable {es : List Bool} {s s' : Shares} {m : Match Nat Nat} {ms ns : List (Match Nat Nat)}

theorem play_cons_eq_some (h : play es (m :: ms) s = some s') :
    ∃ i, s.pick? es m.home m.guest = some i ∧ (s.onDuty i).isEven = true ∧
      play es ms (s.onDuty i) = some s' := by
  rw [play] at h
  split at h
  · cases h
  · rename_i i hi
    split at h
    · exact ⟨i, hi, ‹_›, h⟩
    · cases h

theorem play_append (ms ns : List (Match Nat Nat)) (s : Shares) :
    play es (ms ++ ns) s = (play es ms s).bind (play es ns) := by
  induction ms generalizing s with
  | nil => rfl
  | cons m ms ih =>
    rw [List.cons_append, play, play]
    split
    · rfl
    · split
      · exact ih _
      · rfl

/-- Shares are even just when the duties of the referees are. -/
theorem Of.isEven_iff {refs assigned : List Value} (h : s.Of refs assigned) :
    s.isEven = true ↔ ∀ a ∈ refs, ∀ b ∈ refs, assigned.count a ≤ assigned.count b + 2 := by
  simp only [isEven, h.counts, List.all_map, List.all_eq_true, Function.comp_apply,
    decide_eq_true_eq]

/-- **What is played on places is what the referees do**, and they stay even. -/
theorem Of.exists_duties_of_play {refs assigned : List Value} (h : s.Of refs assigned)
    (hd : AllDifferent refs) (heven : s.isEven = true)
    (hms : ∀ m ∈ ms, m.home ∈ List.range refs.length ∧ m.guest ∈ List.range refs.length)
    (hplay : play (sound refs) ms s = some s') :
    ∃ vs, duties refs assigned (Schedule.taken refs ms) = some vs ∧
      ∀ us, us <+: vs → ∀ a ∈ refs, ∀ b ∈ refs,
        (assigned ++ us).count a ≤ (assigned ++ us).count b + 2 := by
  induction ms generalizing assigned s with
  | nil =>
    refine ⟨[], rfl, fun us hus => ?_⟩
    rw [List.prefix_nil.mp hus, List.append_nil]
    exact h.isEven_iff.mp heven
  | cons m ms ih =>
    obtain ⟨hhome, hguest⟩ := hms m List.mem_cons_self
    obtain ⟨i, hi, heven', hplay⟩ := play_cons_eq_some hplay
    have hpick := h.pick?_eq hd (List.mem_range.mp hhome) (List.mem_range.mp hguest)
    rw [hi] at hpick
    have hlt : i < refs.length := length_sound refs ▸ lt_of_pick? hi
    obtain ⟨vs, hvs, hle⟩ := ih (h.onDuty hd hlt) heven'
      (fun n hn => hms n (List.mem_cons_of_mem m hn)) hplay
    refine ⟨Circle.sitting refs i :: vs, duties_cons.mpr ⟨_, vs, hpick, hvs, rfl⟩, ?_⟩
    intro us hus
    rcases List.prefix_cons_iff.mp hus with rfl | ⟨us, rfl, hus⟩
    · rw [List.append_nil]
      exact h.isEven_iff.mp heven
    · rw [List.append_cons]
      exact hle us ((List.prefix_cons_inj _).mp hus)

/-! ## 2. All orders of turns -/

/-- Duties stay even in whatever order so many turns are played that are left. -/
def staysEvenFrom (es : List Bool) : Nat → List (List (Match Nat Nat)) → Shares → Bool
  | 0, _, _ => true
  | k + 1, turns, s => (List.range turns.length).all fun i =>
    (play es (turns.getD i []) s).any (staysEvenFrom es k (turns.eraseIdx i))

/-- **Every order of the turns is played through.** -/
theorem exists_play_of_perm {turns order : List (List (Match Nat Nat))} (hperm : order.Perm turns)
    (h : staysEvenFrom es turns.length turns s = true) :
    ∃ s', play es order.flatten s = some s' := by
  induction order generalizing turns s with
  | nil => exact ⟨s, rfl⟩
  | cons ms order ih =>
    obtain ⟨i, hi, hms⟩ := List.getElem_of_mem (hperm.mem_iff.mp List.mem_cons_self)
    have hlen : (turns.eraseIdx i).length + 1 = turns.length := by
      rw [List.length_eraseIdx_of_lt hi]
      omega
    rw [← hlen, staysEvenFrom, List.all_eq_true] at h
    have hfirst := h i (List.mem_range.mpr hi)
    rw [List.getD_eq_getElem?_getD, List.getElem?_eq_getElem hi, Option.getD_some, hms] at hfirst
    obtain ⟨s', hs', hrest⟩ := (Option.any_eq_true _ _).mp hfirst
    have hsplit := hperm.trans (List.getElem_cons_eraseIdx_perm hi).symm
    rw [hms] at hsplit
    rw [List.flatten_cons, play_append, hs']
    exact ih hsplit.cons_inv hrest

end Shares

/-! ## 3. What is tried out -/

/-- All ways in which those who take some places may be equal to themselves or not. -/
def soundnesses : Nat → List (List Bool)
  | 0 => [[]]
  | n + 1 => (soundnesses n).flatMap fun es => [true :: es, false :: es]

theorem mem_soundnesses (es : List Bool) : es ∈ soundnesses es.length := by
  induction es with
  | nil => exact List.mem_singleton_self []
  | cons e es ih =>
    refine List.mem_flatMap.mpr ⟨es, ih, ?_⟩
    cases e <;> simp

/-- The first place is taken by somebody who is equal to himself, or by somebody who is not. -/
theorem forall_soundnesses {n : Nat} {P : List Bool → Prop}
    (htrue : ∀ es ∈ soundnesses n, P (true :: es))
    (hfalse : ∀ es ∈ soundnesses n, P (false :: es)) : ∀ es ∈ soundnesses (n + 1), P es := by
  intro es hes
  obtain ⟨rest, hrest, hmem⟩ := List.mem_flatMap.mp hes
  rcases List.mem_pair.mp hmem with rfl | rfl
  · exact htrue rest hrest
  · exact hfalse rest hrest

/-- The duties of places stay even. -/
def KeepsEven (n : Nat) (ms : List (Match Nat Nat)) : Prop :=
  ∀ es ∈ soundnesses n, (Shares.play es ms (.initial n)).isSome = true

/-- The duties of places stay even, in whatever order turns are played after the first one. -/
def KeepsEvenInOrders (n : Nat) (ms : List (Match Nat Nat)) : Prop :=
  let turns := (Schedule.turns ms).map (Schedule.ofTurn ms)
  ∀ first ∈ turns.head?, ∀ es ∈ soundnesses n, (Shares.play es first (.initial n)).any
    (Shares.staysEvenFrom es turns.tail.length turns.tail) = true

instance (n : Nat) (ms : List (Match Nat Nat)) : Decidable (KeepsEven n ms) :=
  inferInstanceAs (Decidable (∀ es ∈ soundnesses n, _))

instance (n : Nat) (ms : List (Match Nat Nat)) : Decidable (KeepsEvenInOrders n ms) :=
  inferInstanceAs (Decidable (∀ first ∈ List.head? _, ∀ es ∈ soundnesses n, _))

/-- Six places have the most orders. -/
theorem places_keepEven_six : KeepsEvenInOrders 6 (Circle.places 6) := by
  intro first hfirst
  -- four decisions, since what has been worked out in one is kept until it ends
  refine forall_soundnesses (forall_soundnesses ?_ ?_) (forall_soundnesses ?_ ?_)
  all_goals
    revert first
    decide +kernel

/-- **The circle keeps duties of three to six places even**, in every order of turns that begins
with the first one. -/
theorem places_keepEven : ∀ n ∈ [3, 4, 5, 6],
    KeepsEven n (Circle.places n) ∧ KeepsEvenInOrders n (Circle.places n) := by
  have hfewer : ∀ n ∈ [3, 4, 5],
      KeepsEven n (Circle.places n) ∧ KeepsEvenInOrders n (Circle.places n) := by
    decide +kernel
  have hsix : KeepsEven 6 (Circle.places 6) := by decide +kernel
  intro n hn
  rcases List.mem_append.mp (show n ∈ [3, 4, 5] ++ [6] from hn) with hn | hn
  · exact hfewer n hn
  · obtain rfl := List.mem_singleton.mp hn
    exact ⟨hsix, places_keepEven_six⟩

/-- **The ideal tables keep duties of five and of six places even.** -/
theorem tables_keepEven : ∀ entry ∈ Ideal.tables, entry.1 < 7 →
    KeepsEven entry.1 (Ideal.placesOf entry.2) := by
  decide +kernel

/-- What holds of all orders holds of each. -/
theorem KeepsEvenInOrders.keepsEven {n : Nat} {ms : List (Match Nat Nat)} {us : List Nat}
    (h : KeepsEvenInOrders n ms) (hperm : us.Perm (Schedule.turns ms))
    (hhead : us.head? = (Schedule.turns ms).head?) :
    KeepsEven n (us.flatMap (Schedule.ofTurn ms)) := by
  intro es hes
  unfold KeepsEvenInOrders at h
  dsimp only at h
  cases us with
  | nil => rfl
  | cons u us =>
    cases hturns : Schedule.turns ms with
    | nil =>
      rw [hturns] at hhead
      cases hhead
    | cons t ts =>
      rw [hturns] at hperm hhead h
      cases hhead
      obtain ⟨s, hs, hrest⟩ := (Option.any_eq_true _ _).mp (h _ rfl es hes)
      obtain ⟨s', hs'⟩ := Shares.exists_play_of_perm (hperm.cons_inv.map (Schedule.ofTurn ms)) hrest
      rw [List.flatMap_cons, Shares.play_append, hs, List.flatMap_def]
      exact Option.isSome_iff_exists.mpr ⟨s', hs'⟩

/-! ## 4. Participants -/

/-- **Duties of participants stay even if those of their places do.** -/
theorem KeepsEven.staysEven {ps vs : List Value} {ms : List (Match Nat Nat)}
    (h : KeepsEven ps.length ms) (hd : AllDifferent ps) (hnone : .none ∉ ps)
    (hms : ∀ m ∈ ms, m.home ∈ List.range ps.length ∧ m.guest ∈ List.range ps.length)
    (hvs : duties ps [] (Schedule.taken ps ms) = some vs) : StaysEven ps vs := by
  have hsound : sound ps ∈ soundnesses ps.length := length_sound ps ▸ mem_soundnesses (sound ps)
  obtain ⟨s, hplay⟩ := Option.isSome_iff_exists.mp (h _ hsound)
  have hnobody := Shares.of_nil hnone
  obtain ⟨ws, hws, heven⟩ := hnobody.exists_duties_of_play hd
    (hnobody.isEven_iff.mpr fun _ _ _ _ => Nat.zero_le _) hms hplay
  cases hvs.symm.trans hws
  exact fun us hus => heven us ((List.mem_inits _ _).mp hus)

end Matchday.Rota
