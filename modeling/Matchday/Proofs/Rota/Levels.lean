/-
# Why duties stay even

The duties of the referees lie on three levels at any time: some have `k`, some `k + 1` and some
`k + 2` of them, and nobody has more.  Those on the lowest level are behind, those on the highest
are ahead.  A match makes somebody go ahead only if everybody behind plays in it, or has just been
on duty.  That does not happen often while the same referees stay behind (`Levelled`):

* with three or more behind, it does not happen at all, since only two play in a match;
* with two behind it happens in the match between the two, so once at most;
* with one behind it happens in his matches, and he has no more than two of them in a row.

So at most three get ahead before the last one behind goes on duty.  Of seven referees four or more
are then behind on the next level, and none ahead (`Levelled.raise_last`).  The argument needs of
the schedule that any two meet once at most and that nobody plays three times in a row (`Admits`).
-/
import Mathlib.Data.List.Induction
import Matchday.Proofs.Rota.Duties
import Matchday.Proofs.Round

namespace Matchday

variable {τ : Type}

/-- How many matches a player has had in a row at the end of a schedule. -/
def Schedule.lately (x : Value) (ms : List (Match τ Value)) : Nat :=
  (ms.reverse.takeWhile (Match.involves x)).length

theorem Schedule.lately_concat (x : Value) (ms : List (Match τ Value)) (m : Match τ Value) :
    Schedule.lately x (ms ++ [m]) = if m.involves x then Schedule.lately x ms + 1 else 0 := by
  rw [lately, List.reverse_concat, List.takeWhile_cons]
  split <;> rfl

namespace Rota

/-! ## 1. Levels -/

/-- How many of the referees have a number of duties. -/
def levelSize (refs vs : List Value) (k : Nat) : Nat := refs.countP (vs.count · == k)

section Sizes

variable {refs vs : List Value} {v x : Value} {k : Nat}

theorem count_concat (vs : List Value) (v x : Value) :
    (vs ++ [v]).count x = vs.count x + if v == x then 1 else 0 := by
  rw [List.count_append, List.count_singleton]

/-- **One duty more** takes a referee from one level to the next. -/
theorem levelSize_concat (hd : AllDifferent refs) (hv : v ∈ refs) (vs : List Value) (i : Nat) :
    levelSize refs (vs ++ [v]) i + (if vs.count v = i then 1 else 0)
      = levelSize refs vs i + (if vs.count v + 1 = i then 1 else 0) := by
  have hself : (vs ++ [v]).count v = vs.count v + 1 := by
    rw [count_concat, BEq.rfl]
    rfl
  have hdiffer := countP_add_of_differ hd hv (p := ((vs ++ [v]).count · == i))
    (q := (vs.count · == i)) fun x _ hx => by rw [count_concat, hx]; rfl
  simp only [hself, beq_iff_eq] at hdiffer
  exact hdiffer

/-- Three levels hold everybody. -/
theorem levelSize_sum (hlower : ∀ x ∈ refs, k ≤ vs.count x)
    (hupper : ∀ x ∈ refs, vs.count x ≤ k + 2) :
    levelSize refs vs k + levelSize refs vs (k + 1) + levelSize refs vs (k + 2)
      = refs.length := by
  have hall : refs.countP (fun x => (vs.count x == k || vs.count x == k + 1)
      || vs.count x == k + 2) = refs.length := by
    refine List.countP_eq_length.mpr fun x hx => ?_
    have := hlower x hx
    have := hupper x hx
    simp only [Bool.or_eq_true, beq_iff_eq]
    omega
  rw [countP_or_of_disjoint, countP_or_of_disjoint] at hall
  · exact hall
  · intro x _ hx
    rw [beq_iff_eq] at hx
    exact beq_false_of_ne (by omega)
  · intro x _ hx
    rw [Bool.or_eq_true, beq_iff_eq, beq_iff_eq] at hx
    exact beq_false_of_ne (by omega)

/-- Alone on a level. -/
theorem eq_of_levelSize_one (h1 : levelSize refs vs k = 1) (hv : v ∈ refs) (hvk : vs.count v = k)
    (hx : x ∈ refs) (hxk : vs.count x = k) : v = x := by
  by_contra hne
  have hnd : [v, x].Nodup := by simp [hne]
  have hle := length_le_countP hnd refs (p := (vs.count · == k)) fun w hw => by
    rcases List.mem_cons.mp hw with rfl | hw
    · exact ⟨hv, beq_iff_eq.mpr hvk⟩
    · rw [List.mem_singleton.mp hw]
      exact ⟨hx, beq_iff_eq.mpr hxk⟩
  rw [List.length_cons, List.length_singleton] at hle
  unfold levelSize at h1
  omega

/-- Of more referees on a level than are named, one is not named. -/
theorem exists_onLevel (hd : AllDifferent refs) (ys : List Value)
    (hlt : ys.length < levelSize refs vs k) :
    ∃ x ∈ refs, vs.count x = k ∧ ∀ y ∈ ys, (x == y) = false := by
  obtain ⟨x, hx, hxk, hne⟩ := exists_of_length_lt_countP hd ys hlt
  exact ⟨x, hx, beq_iff_eq.mp hxk, hne⟩

end Sizes

/-! ## 2. What a schedule has to keep to -/

/-- A schedule can go on with a match between two participants who have not met, without anybody
playing three times in a row. -/
structure Admits (refs : List Value) (ms : List (Match τ Value)) (m : Match τ Value) : Prop where
  home_mem : m.home ∈ refs
  guest_mem : m.guest ∈ refs
  new : ∀ n ∈ ms, n.isBetween m.home m.guest = false
  lately_le : ∀ x ∈ refs, Schedule.lately x ms ≤ 2
  lately_next : ∀ x ∈ refs, Schedule.lately x (ms ++ [m]) ≤ 2

/-! ## 3. What holds after every match -/

/-- **Level**: nobody has more than two duties more than those behind, who have `k`.  How many are
ahead depends on how many are behind. -/
structure Levelled (refs : List Value) (ms : List (Match τ Value)) (vs : List Value)
    (k : Nat) : Prop where
  lower : ∀ x ∈ refs, k ≤ vs.count x
  upper : ∀ x ∈ refs, vs.count x ≤ k + 2
  some_behind : 1 ≤ levelSize refs vs k
  rested : levelSize refs vs k ≤ 3 →
    ∀ x ∈ refs, vs.count x = k → (x == lastOnDuty vs) = false
  three_behind : 3 ≤ levelSize refs vs k → levelSize refs vs (k + 2) = 0
  two_behind : levelSize refs vs k = 2 → levelSize refs vs (k + 2) ≤ 1
  met : levelSize refs vs k = 2 → levelSize refs vs (k + 2) = 1 →
    ∀ x ∈ refs, ∀ y ∈ refs, vs.count x = k → vs.count y = k → (x == y) = false →
      ∃ n ∈ ms, n.isBetween x y = true
  one_behind : levelSize refs vs k = 1 →
    ∀ x ∈ refs, vs.count x = k → levelSize refs vs (k + 2) ≤ 1 + Schedule.lately x ms

section Steps

variable {refs vs : List Value} {ms : List (Match τ Value)} {m : Match τ Value} {v : Value}
  {k : Nat}

/-- Before the first match everybody is behind. -/
theorem levelled_nil (h4 : 4 ≤ refs.length) :
    Levelled refs ([] : List (Match τ Value)) [] 0 := by
  have hall : levelSize refs [] 0 = refs.length := List.countP_eq_length.mpr fun x _ => rfl
  have hnone : levelSize refs [] (0 + 2) = 0 := List.countP_eq_zero.mpr fun x _ => by simp
  constructor
  · exact fun x _ => Nat.zero_le _
  · exact fun x _ => Nat.zero_le _
  all_goals omega

/-- **Somebody behind goes on duty**, and others are still behind. -/
theorem Levelled.raise_behind (h : Levelled refs ms vs k) (hd : AllDifferent refs) (hv : v ∈ refs)
    (hcount : vs.count v = k) (h2 : 2 ≤ levelSize refs vs k) (m : Match τ Value) :
    Levelled refs (ms ++ [m]) (vs ++ [v]) k := by
  have hbehind := levelSize_concat hd hv vs k
  have hahead := levelSize_concat hd hv vs (k + 2)
  rw [hcount, if_pos rfl, if_neg (by omega)] at hbehind
  rw [hcount, if_neg (by omega), if_neg (by omega)] at hahead
  have hthree := h.three_behind
  have htwo := h.two_behind
  refine ⟨fun x hx => ?_, fun x hx => ?_, by omega, fun _ x hx hxk => ?_, by omega, by omega,
    by omega, by omega⟩
  · have := h.lower x hx
    rw [count_concat]
    omega
  · have := h.upper x hx
    rw [count_concat]
    split
    · rename_i hvx
      rw [← hd.eq_of_beq hv hx hvx]
      omega
    · omega
  · -- whoever has just been on duty is no longer behind
    rw [lastOnDuty_concat]
    have hlow := h.lower x hx
    refine Bool.eq_false_iff.mpr fun hxv => ?_
    rw [count_concat, BEq.symm hxv, if_pos rfl] at hxk
    omega

/-- **The last one behind goes on duty**, and the next level begins.  At most three are ahead by
then, so of seven referees four or more are behind now. -/
theorem Levelled.raise_last (h : Levelled refs ms vs k) (hd : AllDifferent refs)
    (h7 : 7 ≤ refs.length) (hv : v ∈ refs) (hcount : vs.count v = k)
    (h1 : levelSize refs vs k = 1) (hlate : Schedule.lately v ms ≤ 2) (m : Match τ Value) :
    Levelled refs (ms ++ [m]) (vs ++ [v]) (k + 1) := by
  have hall := levelSize_sum h.lower h.upper
  have hthree := h.one_behind h1 v hv hcount
  have hbehind := levelSize_concat hd hv vs (k + 1)
  rw [hcount, if_neg (by omega), if_pos rfl] at hbehind
  have hnone : levelSize refs (vs ++ [v]) (k + 1 + 2) = 0 := by
    refine List.countP_eq_zero.mpr fun x hx hxk => ?_
    have := h.upper x hx
    rw [beq_iff_eq, count_concat] at hxk
    split at hxk
    · rename_i hvx
      rw [← hd.eq_of_beq hv hx hvx] at hxk
      omega
    · omega
  refine ⟨fun x hx => ?_, fun x hx => ?_, by omega, by omega, by omega, by omega, by omega,
    by omega⟩
  · -- nobody else was behind
    have hlow := h.lower x hx
    rw [count_concat]
    by_cases hxk : vs.count x = k
    · rw [eq_of_levelSize_one h1 hv hcount hx hxk, BEq.rfl, if_pos rfl]
      omega
    · omega
  · have := h.upper x hx
    rw [count_concat]
    split <;> omega

section Playing

/-- Everybody behind plays in the match. -/
def AllBehindPlay (refs vs : List Value) (k : Nat) (m : Match τ Value) : Prop :=
  ∀ x ∈ refs, vs.count x = k → (x == m.home) = true ∨ (x == m.guest) = true

/-- Two at most play. -/
theorem AllBehindPlay.levelSize_le (h : AllBehindPlay refs vs k m) (hd : AllDifferent refs) :
    levelSize refs vs k ≤ 2 := by
  by_contra hmany
  obtain ⟨x, hx, hxk, hne⟩ := exists_onLevel hd [m.home, m.guest] (Nat.lt_of_not_le hmany)
  rcases h x hx hxk with hb | hb
  · rw [hne m.home (by simp)] at hb
    cases hb
  · rw [hne m.guest (by simp)] at hb
    cases hb

/-- If two are behind, they are the two who play. -/
theorem AllBehindPlay.players (h : AllBehindPlay refs vs k m) (hd : AllDifferent refs)
    (hhome : m.home ∈ refs) (hguest : m.guest ∈ refs) (htwo : 1 < levelSize refs vs k) :
    vs.count m.home = k ∧ vs.count m.guest = k ∧ (m.home == m.guest) = false := by
  obtain ⟨x, hx, hxk, hxguest⟩ := exists_onLevel hd [m.guest] htwo
  obtain ⟨y, hy, hyk, hyhome⟩ := exists_onLevel hd [m.home] htwo
  have hxguest := hxguest m.guest List.mem_cons_self
  have hyhome := hyhome m.home List.mem_cons_self
  have hxhome := (h x hx hxk).resolve_right (by rw [hxguest]; exact Bool.false_ne_true)
  have hyguest := (h y hy hyk).resolve_left (by rw [hyhome]; exact Bool.false_ne_true)
  rw [hd.eq_of_beq hx hhome hxhome] at hxk hxguest
  rw [hd.eq_of_beq hy hguest hyguest] at hyk
  exact ⟨hxk, hyk, hxguest⟩

theorem AllBehindPlay.involves (h : AllBehindPlay refs vs k m) {x : Value} (hx : x ∈ refs)
    (hxk : vs.count x = k) : m.involves x = true := by
  rw [Match.involves, BEq.comm (a := m.home), BEq.comm (a := m.guest), Bool.or_eq_true]
  exact h x hx hxk

theorem AllBehindPlay.isBetween (h : AllBehindPlay refs vs k m) {x y : Value} (hx : x ∈ refs)
    (hy : y ∈ refs) (hxk : vs.count x = k) (hyk : vs.count y = k) (hxy : (x == y) = false) :
    m.isBetween x y = true := by
  unfold Match.isBetween
  rcases h x hx hxk with hbx | hbx <;> rcases h y hy hyk with hby | hby
  · rw [BEq.congr_left hbx, BEq.comm, hby] at hxy
    cases hxy
  · rw [BEq.symm hbx, BEq.symm hby]
    rfl
  · rw [BEq.symm hbx, BEq.symm hby]
    exact Bool.or_true _
  · rw [BEq.congr_left hbx, BEq.comm, hby] at hxy
    cases hxy

end Playing

/-- While everybody behind plays, few are ahead: nobody, if two are behind, and two at most, if it
is one. -/
theorem Levelled.ahead_le (h : Levelled refs ms vs k) (hd : AllDifferent refs)
    (hm : Admits refs ms m) (hplay : AllBehindPlay refs vs k m) :
    levelSize refs vs k + levelSize refs vs (k + 2) ≤ 3 ∧
      (levelSize refs vs k = 2 → levelSize refs vs (k + 2) = 0) := by
  have hfew := hplay.levelSize_le hd
  have hsome := h.some_behind
  have htwo : levelSize refs vs k = 2 → levelSize refs vs (k + 2) = 0 := by
    intro htwo
    obtain ⟨hhome, hguest, hne⟩ := hplay.players hd hm.home_mem hm.guest_mem (by omega)
    have hle := h.two_behind htwo
    by_contra hpos
    -- somebody got ahead when the two met, and now they meet again
    obtain ⟨n, hn, hbetween⟩ :=
      h.met htwo (by omega) _ hm.home_mem _ hm.guest_mem hhome hguest hne
    rw [hm.new n hn] at hbetween
    cases hbetween
  refine ⟨?_, htwo⟩
  by_cases hone : levelSize refs vs k = 1
  · obtain ⟨x, hx, hxk, -⟩ := exists_onLevel hd [] (k := k) (by rw [hone]; exact Nat.zero_lt_one)
    have hlate := h.one_behind hone x hx hxk
    have hnext := hm.lately_next x hx
    rw [Schedule.lately_concat, if_pos (hplay.involves hx hxk)] at hnext
    omega
  · have := htwo (by omega)
    omega

/-- **Somebody on the middle level goes ahead**, because all of those behind play. -/
theorem Levelled.raise_middle (h : Levelled refs ms vs k) (hd : AllDifferent refs) (hv : v ∈ refs)
    (hcount : vs.count v = k + 1) (hm : Admits refs ms m) (hplay : AllBehindPlay refs vs k m) :
    Levelled refs (ms ++ [m]) (vs ++ [v]) k := by
  have hfew := hplay.levelSize_le hd
  obtain ⟨-, hnone⟩ := h.ahead_le hd hm hplay
  -- those behind are the same as before
  have hbehind : ∀ x ∈ refs, (vs ++ [v]).count x = k → vs.count x = k := by
    intro x hx hxk
    have hlow := h.lower x hx
    rw [count_concat] at hxk
    omega
  have hsize := levelSize_concat hd hv vs k
  have hahead := levelSize_concat hd hv vs (k + 2)
  rw [hcount, if_neg (by omega), if_neg (by omega)] at hsize
  rw [hcount, if_neg (by omega), if_pos rfl] at hahead
  refine ⟨fun x hx => ?_, fun x hx => ?_, ?_, fun _ x hx hxk => ?_, by omega, by omega, ?_, ?_⟩
  · have := h.lower x hx
    rw [count_concat]
    omega
  · have := h.upper x hx
    rw [count_concat]
    split
    · rename_i hvx
      rw [← hd.eq_of_beq hv hx hvx]
      omega
    · omega
  · have := h.some_behind
    omega
  · rw [lastOnDuty_concat]
    have hxk := hbehind x hx hxk
    refine Bool.eq_false_iff.mpr fun hxv => ?_
    rw [hd.eq_of_beq hx hv hxv] at hxk
    omega
  · intro _ _ x hx y hy hxk hyk hxy
    exact ⟨m, List.mem_append_right ms List.mem_cons_self,
      hplay.isBetween hx hy (hbehind x hx hxk) (hbehind y hy hyk) hxy⟩
  · intro hone x hx hxk
    have hxk := hbehind x hx hxk
    have hlate := h.one_behind (by omega) x hx hxk
    rw [Schedule.lately_concat, if_pos (hplay.involves hx hxk)]
    omega

/-- **One match more**: duties stay level among seven or more referees. -/
theorem Levelled.step (h : Levelled refs ms vs k) (hd : AllDifferent refs) (h7 : 7 ≤ refs.length)
    (hm : Admits refs ms m) (hv : pick? refs vs m.home m.guest = some v) :
    ∃ k', Levelled refs (ms ++ [m]) (vs ++ [v]) k' := by
  have hmem := (mem_free.mp (mem_free_of_pick? hv)).1
  have hlow := h.lower v hmem
  by_cases hcount : vs.count v = k
  · by_cases hone : levelSize refs vs k = 1
    · exact ⟨k + 1, h.raise_last hd h7 hmem hcount hone (hm.lately_le v hmem) m⟩
    · have := h.some_behind
      exact ⟨k, h.raise_behind hd hmem hcount (by omega) m⟩
  · -- a referee behind would have gone, so all of those behind play, or were on duty last
    have hlast : ∀ x ∈ free refs m.home m.guest, vs.count x = k →
        equals x (lastOnDuty vs) = true := by
      intro x hx hxk
      by_contra hne
      have := count_le_of_pick? hv hx (by simpa using hne)
      omega
    have hthree : levelSize refs vs k ≤ 3 := by
      by_contra hmany
      obtain ⟨x, hx, hxk, hne⟩ := exists_rested hd (p := (vs.count · == k))
        (Nat.lt_of_not_le hmany) vs m.home m.guest
      rw [hlast x hx (beq_iff_eq.mp hxk)] at hne
      cases hne
    have hplay : AllBehindPlay refs vs k m := by
      intro x hx hxk
      by_contra hnot
      have hnot := not_or.mp hnot
      have hfree : x ∈ free refs m.home m.guest :=
        mem_free.mpr ⟨hx, equals_of_not_beq (Bool.of_not_eq_true hnot.1),
          equals_of_not_beq (Bool.of_not_eq_true hnot.2)⟩
      have := beq_of_equals (hlast x hfree hxk)
      rw [h.rested hthree x hx hxk] at this
      cases this
    -- so few are behind or ahead that somebody on the middle level can go
    obtain ⟨hahead, -⟩ := h.ahead_le hd hm hplay
    have hall := levelSize_sum h.lower h.upper
    obtain ⟨x, hx, hxk, hne⟩ := exists_rested hd (p := (vs.count · == k + 1))
      (show 4 ≤ levelSize refs vs (k + 1) by omega) vs m.home m.guest
    have hle := count_le_of_pick? hv hx hne
    rw [beq_iff_eq.mp hxk] at hle
    exact ⟨k, h.raise_middle hd hmem (by omega) hm hplay⟩

end Steps

/-! ## 4. All matches -/

section Runs

variable {refs vs : List Value} {ms : List (Match τ Value)}

/-- **Duties are level after every match**, among seven or more referees. -/
theorem exists_levelled (hd : AllDifferent refs) (h7 : 7 ≤ refs.length)
    (hms : ∀ pre m, pre ++ [m] <+: ms → Admits refs pre m) (h : duties refs [] ms = some vs) :
    ∃ k, Levelled refs ms vs k := by
  induction ms using List.reverseRecOn generalizing vs with
  | nil =>
    cases h
    exact ⟨0, levelled_nil (by omega)⟩
  | append_singleton ms m ih =>
    obtain ⟨us, v, hus, hv, rfl⟩ := duties_concat.mp h
    have hbefore : ∀ pre n, pre ++ [n] <+: ms → Admits refs pre n := fun pre n hpre =>
      hms pre n (hpre.trans (List.prefix_append ms [m]))
    obtain ⟨k, hk⟩ := ih hbefore hus
    exact hk.step hd h7 (hms ms m (List.prefix_refl _)) hv

/-- **Nobody has more than two duties more than anybody else**, among seven or more referees. -/
theorem count_le_of_duties (hd : AllDifferent refs) (h7 : 7 ≤ refs.length)
    (hms : ∀ pre m, pre ++ [m] <+: ms → Admits refs pre m) (h : duties refs [] ms = some vs)
    {a b : Value} (ha : a ∈ refs) (hb : b ∈ refs) : vs.count a ≤ vs.count b + 2 := by
  obtain ⟨k, hk⟩ := exists_levelled hd h7 hms h
  have hlow := hk.lower b hb
  have hup := hk.upper a ha
  omega

end Runs

end Rota
end Matchday
