/-
# Settings that are written and read again

Written settings give the rule for referees by name and everything else as it is.  Reading finds all
six names again, so it puts every setting back in its place, reads the name as the rule, and has
nothing left to do but to validate: reading what was written is validating (`ofEntries_written`),
with the same faults and the same records.  That takes no more than that the rule is one of the
rules, whatever else the settings were given.

Of any entries only the names of settings are looked at.  A setting gets the value that was given
last under its name, and its default if there is none (`get_assigned`).  So entries under other
names make no difference, and neither does the order in which different names come.
-/
import Matchday.Proofs.Runs
import Matchday.Settings.Session
import Matchday.Value.Equivalence

namespace Matchday

/-- A name is that of one setting at most. -/
theorem Setting.ofName?_eq_some_iff {name : String} {k : Setting} :
    ofName? name = some k ↔ name = k.name := by
  constructor
  · intro h
    unfold ofName? at h
    have hk := List.find?_some h
    exact (beq_iff_eq.mp hk).symm
  · rintro rfl
    exact ofName?_name k

namespace Settings

/-! ## 1. What entries say -/

/-- The value given to a setting: the last one under its name. -/
def lastGiven (entries : Entries) (k : Setting) : Option Value := entries.reverse.lookup k.name

/-- Settings are told by their values. -/
theorem ext_get {s t : Settings} (h : ∀ k, s.get k = t.get k) : s = t := by
  cases s
  cases t
  congr
  · exact h .refereeRule
  · exact h .usesIdeal
  · exact h .sequencedFrom
  · exact h .sequencedTo
  · exact h .shortensStreaks
  · exact h .prefersApart

/-- A value under a name reaches the setting of that name and no other. -/
theorem get_setNamed (s : Settings) (name : String) (v : Value) (k : Setting) :
    (s.setNamed name v).get k = if k.name = name then v else s.get k := by
  unfold setNamed
  cases h : Setting.ofName? name with
  | none =>
    rw [if_neg fun hk => by rw [← hk, Setting.ofName?_name] at h; cases h]
  | some l =>
    obtain rfl := Setting.ofName?_eq_some_iff.mp h
    have hname : k.name = l.name ↔ l = k := by
      rw [← Setting.ofName?_eq_some_iff, Setting.ofName?_name, Option.some_inj, eq_comm]
    simp only [get_set, hname]

/-- **A setting gets the value that was given last under its name**, or keeps its default. -/
theorem get_assigned (entries : Entries) (k : Setting) :
    (assigned entries).get k = (lastGiven entries k).getD (default.get k) := by
  have hall : ∀ s : Settings, (entries.foldl (fun s e => s.setNamed e.1 e.2) s).get k
      = (lastGiven entries k).getD (s.get k) := by
    induction entries with
    | nil => exact fun _ => rfl
    | cons e entries ih =>
      intro s
      rw [List.foldl_cons, ih, get_setNamed, lastGiven, lastGiven, List.reverse_cons,
        List.lookup_append]
      cases entries.reverse.lookup k.name with
      | some v => rfl
      | none =>
        rw [Option.none_or, Option.getD_none, List.lookup_cons, List.lookup_nil]
        by_cases hname : k.name = e.1
        · rw [if_pos hname, beq_iff_eq.mpr hname, Option.getD_some]
        · rw [if_neg hname, beq_false_of_ne hname, Option.getD_none]
  exact hall default

/-- **Only the names of settings are looked at.** -/
theorem ofEntries_congr {entries other : Entries}
    (h : ∀ k, lastGiven entries k = lastGiven other k) : ofEntries entries = ofEntries other := by
  have hassigned : assigned entries = assigned other :=
    ext_get fun k => by rw [get_assigned, get_assigned, h k]
  rw [ofEntries, ofEntries, hassigned]

/-! ## 2. Reading what was written -/

/-- Settings are the same as themselves. -/
theorem beq_self (s : Settings) : (s == s) = true :=
  List.all_eq_true.mpr fun _ _ => BEq.rfl

/-- Entries for all settings are those settings. -/
theorem assigned_all (s : Settings) :
    assigned (Setting.all.map fun k => (k.name, s.get k)) = s := by
  simp [assigned, Setting.all, setNamed, set, get]

section Written

variable {s : Settings} {r : RefereeRule}

/-- Settings with a rule can be written. -/
theorem toEntries_eq (h : s.refereeRule = .rule r) :
    s.toEntries = .ok (Setting.all.map fun k =>
      (k.name, (s.set .refereeRule (.text r.name)).get k)) := by
  rw [toEntries, h]
  rfl

/-- **Reading what was written is validating.** -/
theorem ofEntries_written (h : s.refereeRule = .rule r) :
    ∃ entries, s.toEntries = .ok entries ∧ ofEntries entries = s.validate >>= fun _ => pure s := by
  refine ⟨_, toEntries_eq h, ?_⟩
  have hrule : (s.set .refereeRule (.text r.name)).withRule = .ok s := by
    rw [withRule, set, RefereeRule.read_name]
    cases s
    cases h
    rfl
  rw [ofEntries, assigned_all, hrule]
  rfl

/-- Settings that are read have a rule and are valid. -/
theorem of_ofEntries {entries : Entries} (h : (ofEntries entries).result = .ok s) :
    (∃ r, s.refereeRule = .rule r) ∧ s.validate.result = .ok () := by
  unfold ofEntries at h
  obtain ⟨t, ht, h⟩ := Outcome.bind_eq_ok.mp h
  obtain ⟨_, hvalid, h⟩ := Outcome.bind_eq_ok.mp h
  cases h
  unfold withRule at ht
  obtain ⟨r, -, ht⟩ := Outcome.bind_eq_ok.mp ht
  cases ht
  exact ⟨⟨r, rfl⟩, hvalid⟩

end Written

/-! ## 3. Settings that were given other values -/

section Panels

open Matchday.Action

/-- Values given to settings cover nothing. -/
theorem covered_answer {q : Request} (hq : ∀ name v, q = .set name v → ∃ k : Setting, name = k.name)
    (p : Panel) : (answer q p).2.covered = p.covered := by
  have hlooks : ∀ {x : Action Panel Answer}, Looks x → (x p).2.covered = p.covered := fun h => by
    rw [h p]
  cases q with
  | entries =>
    exact hlooks (looks_bind looks_state fun _ => looks_bind (looks_lift _) fun _ => looks_pure _)
  | validate =>
    exact hlooks (looks_bind looks_state fun _ => looks_bind (looks_lift _) fun _ => looks_pure _)
  | rewritten =>
    exact hlooks (looks_bind looks_state fun _ => looks_bind (looks_lift _) fun _ =>
      looks_bind (looks_lift _) fun _ => looks_bind (looks_lift _) fun _ => looks_pure _)
  | sameAs entries =>
    exact hlooks (looks_bind looks_state fun _ => looks_bind (looks_lift _) fun _ => looks_pure _)
  | set name v =>
    obtain ⟨k, rfl⟩ := hq name v rfl
    simp only [answer, bind_apply, state_apply, lift_apply, change_apply, pure_apply,
      Outcome.ofExcept, Panel.give_setting]

/-- **Settings that were given values cover nothing.** -/
theorem covered_run {rs : List Request}
    (h : ∀ name v, .set name v ∈ rs → ∃ k : Setting, name = k.name) (p : Panel) :
    (Session.run answer rs p).2.covered = p.covered := by
  induction rs generalizing p with
  | nil => rfl
  | cons q rs ih =>
    calc (Session.run answer rs (answer q p).2).2.covered
        = (answer q p).2.covered :=
          ih (fun name v hmem => h name v (List.mem_cons_of_mem q hmem)) _
      _ = p.covered :=
          covered_answer (fun name v hq => h name v (hq ▸ List.mem_cons_self)) p

end Panels

/-- **Settings survive being written exactly when they are valid.**  However settings were made and
whatever values they were given since, as long as their rule is one of the rules, reading what was
written gives the same settings if they are valid, and otherwise the fault that validating gives.
(A value laid over one of the two requests covers it; values given to settings cover nothing.)
Settings that were read from any entries are the same when written and read once more, and entries
are read alike if they give the settings the same values, whatever else there is in them. -/
theorem written_settings_return :
    (∀ (entries : Entries) (s : Settings) (rs : List Request) (p : Panel) (r : RefereeRule),
      (create entries).result = .ok s → (Session.run answer rs (.opened s)).2 = p →
      p.settings.refereeRule = .rule r →
      ((∀ name v, .set name v ∈ rs → ∃ k : Setting, name = k.name) → p.covered = []) ∧
      (p.covered = [] → ∃ written, p.toEntries = .ok written ∧
        (p.validate.result = .ok () →
          ∃ t, (ofEntries written).result = .ok t ∧ (t == p.settings) = true) ∧
        ∀ e, p.validate.result = .error e → (ofEntries written).result = .error e)) ∧
    (∀ (entries : Entries) (s : Settings), (ofEntries entries).result = .ok s →
      ∃ written t, s.toEntries = .ok written ∧ (ofEntries written).result = .ok t ∧
        (t == s) = true) ∧
    ∀ entries other : Entries, (∀ k, lastGiven entries k = lastGiven other k) →
      ofEntries entries = ofEntries other := by
  refine ⟨?_, ?_, fun entries other h => ofEntries_congr h⟩
  · rintro entries s rs p r - rfl hrule
    refine ⟨fun h => covered_run h (.opened s), fun hcovered => ?_⟩
    generalize (Session.run answer rs (.opened s)).2 = p at hrule hcovered ⊢
    obtain ⟨written, hwritten, hread⟩ := ofEntries_written hrule
    have hopen : ∀ service, p.requireOpen service = .ok () := fun service => by
      rw [Panel.requireOpen, hcovered]
      rfl
    have hentries : p.toEntries = p.settings.toEntries := by
      rw [Panel.toEntries, hopen]
      rfl
    have hvalidate : p.validate.result = p.settings.validate.result := by
      rw [Panel.validate, hopen]
      rfl
    refine ⟨written, hentries.trans hwritten, fun hvalid => ⟨p.settings, ?_, beq_self _⟩,
      fun e he => ?_⟩
    · rw [hread, Outcome.result_bind, ← hvalidate, hvalid]
      rfl
    · rw [hread, Outcome.result_bind, ← hvalidate, he]
      rfl
  · intro entries s h
    obtain ⟨⟨r, hrule⟩, hvalid⟩ := of_ofEntries h
    obtain ⟨written, hwritten, hread⟩ := ofEntries_written hrule
    refine ⟨written, s, hwritten, ?_, beq_self s⟩
    rw [hread, Outcome.result_bind, hvalid]
    rfl

/-- Settings made for a rule by its name are the same when read again after a setting was given a
list.  With their range inverted they are not read again, for the reason that they are not valid. -/
theorem written_settings_return_given :
    ∃ made : Settings, (create [("referee_type", .text "Home")]).result = .ok made ∧
      (∃ written t, ((Panel.opened made).lay "use_ideal_system" (.list [])).toEntries = .ok written ∧
        (ofEntries written).result = .ok t ∧
        (t == made.set .usesIdeal (.list [])) = true) ∧
      ∃ written, ((Panel.opened made).lay "optimizer_max_participants" (.bool true)).toEntries
          = .ok written ∧
        (ofEntries written).result
          = .error (.rejected (.invertedRange (.int 3) (.bool true))) := by
  have hmade : (create [("referee_type", .text "Home")]).result
      = .ok (default.set .refereeRule (.rule .home)) := rfl
  refine ⟨_, hmade, ?_, ?_⟩
  · have hreturn := (written_settings_return.1 _ _ [.set "use_ideal_system" (.list [])] _ .home
      hmade rfl rfl).2 rfl
    obtain ⟨written, hwritten, hsame, -⟩ := hreturn
    obtain ⟨t, ht, hbeq⟩ := hsame rfl
    exact ⟨written, t, hwritten, ht, hbeq⟩
  · have hreturn := (written_settings_return.1 _ _
      [.set "optimizer_max_participants" (.bool true)] _ .home hmade rfl rfl).2 rfl
    obtain ⟨written, hwritten, -, hfault⟩ := hreturn
    exact ⟨written, hwritten, hfault _ rfl⟩

end Settings
end Matchday
