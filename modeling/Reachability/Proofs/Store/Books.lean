import Reachability.Proofs.Store.Agreement
import Reachability.Proofs.Store.Service

set_option autoImplicit false

/-! # The log and the index of a store with visitors

Visitors take their turns in any order. The log then holds the entries that the index adds up to,
and at most one more: that of the visitor who has written its line and has not made its change
visible yet. As the lock lets only one visitor write, nobody comes in between (`Sound.step`). -/

namespace Reachability.StoreService

open Disk (Place)

/-- A log that keeps its segments for ever, on a disk that had no file of it, and what the time is
    taken for: dates that do not go back. -/
structure Site (log : Log) (d₀ : Disk) (here : Place) (base : String) (moment : Nat → Moment) :
    Prop where
  begins : log.Begins d₀ here base
  forever : log.retention = .zero
  plain : ∀ t, (moment t).today.Plain
  valid : ∀ t, (moment t).stamp.Valid
  forward : ∀ t u, t ≤ u → (moment t).today.upTo (moment u).today

/-- A ledger with the published entries and those that are ahead of the index. -/
structure Books (log : Log) (d₀ : Disk) (here : Place) (base : String) (today : CivilDate)
    (s : StoreService) (l : Log.Ledger) (published ahead : List Log.Entry) : Prop where
  log_eq : s.store.log = log
  holds : log.Holds d₀ here base s.disk l.shelf
  orderly : l.Orderly log today
  valid : ∀ e ∈ l.entries, e.Valid
  few : l.closed.length ≤ l.entries.length
  entries : l.entries = published ++ ahead
  tasks : s.store.index.tasks = (Index.ofEntries published).tasks

namespace Books

variable {log : Log} {d₀ : Disk} {here : Place} {base : String} {moments : Nat → Moment}
  {today : CivilDate} {s s' : StoreService} {l : Log.Ledger} {published ahead : List Log.Entry}
  {moment : Moment}

theorem congr (h : Books log d₀ here base today s l published ahead)
    (hlog : s'.store.log = s.store.log) (disk : s'.disk = s.disk)
    (tasks : s'.store.index.tasks = s.store.index.tasks) :
    Books log d₀ here base today s' l published ahead where
  log_eq := hlog.trans h.log_eq
  holds := disk ▸ h.holds
  orderly := h.orderly
  valid := h.valid
  few := h.few
  entries := h.entries
  tasks := tasks.trans h.tasks

theorem mono (h : Books log d₀ here base today s l published ahead) {later : CivilDate}
    (hdate : today.upTo later) : Books log d₀ here base later s l published ahead :=
  { h with orderly := h.orderly.mono hdate }

theorem valid_entry (hstamp : moment.stamp.Valid) (change : Pending) :
    (change.entry moment).Valid := by
  cases change <;> exact hstamp

/-- A line that is written puts the log ahead of the index. -/
theorem wrote (h : Books log d₀ here base today s l published [])
    (site : Site log d₀ here base moments) (hdate : today.upTo moment.today)
    (hplain : moment.today.Plain) (hstamp : moment.stamp.Valid)
    (names : ∀ n ≤ l.closed.length, log.CanName moment.today n) {change : Pending}
    {outcome : Except StoreError Unit} {disk : Disk}
    (run : (s.store.log.append moment (change.entry moment)).run.run moment.seconds s.disk
      = (outcome, disk)) :
    outcome = .ok () ∧ ∃ l' : Log.Ledger,
      Books log d₀ here base moment.today { s with disk } l' published [change.entry moment] := by
  obtain ⟨l', d', hrun, hholds, horderly, hentries, hclosed⟩ :=
    h.orderly.run_append site.begins h.holds site.forever hdate hplain names (change.entry moment)
  rw [h.log_eq, hrun] at run
  obtain ⟨rfl, rfl⟩ := Prod.mk.inj run
  have hlength : l.entries.length = published.length := by rw [h.entries, List.append_nil]
  refine ⟨rfl, l', h.log_eq, hholds, horderly, ?_, ?_, ?_, h.tasks⟩
  · intro e he
    rw [hentries] at he
    rcases List.mem_append.1 he with he | he
    · exact h.valid e he
    · rw [List.mem_singleton.1 he]
      exact valid_entry hstamp change
  · have := h.few
    rw [hentries, List.length_append, List.length_singleton]
    omega
  · rw [hentries, h.entries, List.append_nil]

/-- The index after a change has been made visible. -/
theorem tasks_publish (h : s.store.index.tasks = (Index.ofEntries published).tasks)
    (moment : Moment) (change : Pending) :
    (change.publish s.store).index.tasks
      = (Index.ofEntries (published ++ [change.entry moment])).tasks := by
  rw [Index.ofEntries_concat]
  cases change with
  | create task =>
      show s.store.index.tasks.insert _ _ = (Index.ofEntries published).tasks.insert _ _
      rw [h]
  | update id result =>
      show Index.setResult s.store.index.tasks _ _
        = Index.setResult (Index.ofEntries published).tasks _ _
      rw [h]

/-- A change that is made visible brings the index up to the log. -/
theorem settled {change : Pending} {writer : Permits}
    (h : Books log d₀ here base today s l published [change.entry moment]) :
    Books log d₀ here base today { s with store := change.publish s.store, writer } l
      (published ++ [change.entry moment]) [] where
  log_eq := by
    rw [← h.log_eq]
    cases change <;> rfl
  holds := h.holds
  orderly := h.orderly
  valid := h.valid
  few := h.few
  entries := by rw [h.entries, List.append_nil]
  tasks := tasks_publish h.tasks moment change

/-- The log of a store of which no entry is ahead can be opened afresh: it has the same tasks. -/
theorem run_opened (h : Books log d₀ here base today s l published [])
    (site : Site log d₀ here base moments) (now : Int) :
    (Store.opened log).run.run now s.disk = (.ok ⟨log, .ofEntries published⟩, s.disk) := by
  have hentries : l.entries = published := by rw [h.entries, List.append_nil]
  rw [Store.run_opened site.begins h.holds h.orderly.ascending h.valid now, hentries]

/-- What is read from the log are the published entries. -/
theorem run_replay (h : Books log d₀ here base today s l published [])
    (site : Site log d₀ here base moments) (now : Int) :
    ∃ replay, log.replay.run.run now s.disk = (.ok replay, s.disk) ∧
      replay.entries = published := by
  refine ⟨l.replay, h.holds.run_replay site.begins h.valid now, ?_⟩
  rw [l.replay_entries h.orderly.ascending, h.entries, List.append_nil]

end Books

/-! ## With visitors -/

/-- Whether a visitor has written its line and not made its change visible. -/
def Visit.IsWritten (visit : Visit) : Prop := ∃ change outcome, visit = .written change outcome

/-- Which entries are ahead of the index: the one of the visitor that has written its line. -/
def Ahead (visits : TaskKey → Option Visit) (ahead : List Log.Entry) : Prop :=
  (ahead = [] ∧ ∀ key visit, visits key = some visit → ¬ visit.IsWritten) ∨
    ∃ key change moment, visits key = some (.written change (.ok ())) ∧
      ahead = [change.entry moment]

/-- The lock and the books of a store with visitors, with the published entries. Each of these, and
    each visitor inside, comes from a call that the store has received. -/
structure Sound (log : Log) (d₀ : Disk) (here : Place) (base : String) (today : CivilDate)
    (s : StoreService) (visits : TaskKey → Option Visit) (published : List Log.Entry) : Prop where
  guarded : Guarded s visits
  books : ∃ (l : Log.Ledger) (ahead : List Log.Entry),
    Books log d₀ here base today s l published ahead ∧ Ahead visits ahead
  few : published.length + s.writer.users.length ≤ s.receipts.length

/-- What a step of a visitor adds to the published entries. -/
inductive Publishes (published : List Log.Entry) : Visit → List Log.Entry → Prop where
  | nothing {visit : Visit} (h : ¬ visit.IsWritten) : Publishes published visit published
  | change (change : Pending) (moment : Moment) :
      Publishes published (.written change (.ok ())) (published ++ [change.entry moment])

section Sound

variable {log : Log} {d₀ : Disk} {here : Place} {base : String} {moments : Nat → Moment}
  {today : CivilDate} {s s' : StoreService} {published ahead : List Log.Entry}
  {visits visits' : TaskKey → Option Visit} {key : TaskKey} {visit visit' : Visit} {now : Nat}
  {front : StoreFront}

theorem any_isWriting {key : TaskKey} {visit : Visit} (hvisit : visits key = some visit)
    (h : visit.isWriting = true) : (visits key).any Visit.isWriting = true := by
  rw [hvisit, Option.any_some, h]

theorem Visit.IsWritten.isWriting (h : visit.IsWritten) : visit.isWriting = true := by
  obtain ⟨change, outcome, rfl⟩ := h
  rfl

/-- A visitor that has written nothing before its step and nothing after it. -/
theorem Ahead.of_others (h : Ahead visits ahead) (hvisit : visits key = some visit)
    (hself : visits' key = some visit')
    (hothers : ∀ other, other ≠ key → visits' other = visits other)
    (hbefore : ¬ visit.IsWritten) (hafter : ¬ visit'.IsWritten) : Ahead visits' ahead := by
  rcases h with ⟨rfl, hnone⟩ | ⟨writer, change, moment, hwriter, rfl⟩
  · refine .inl ⟨rfl, fun other v hv => ?_⟩
    by_cases hne : other = key
    · rw [hne, hself] at hv
      exact Option.some.inj hv ▸ hafter
    · exact hnone other v (hothers other hne ▸ hv)
  · have hne : writer ≠ key := by
      rintro rfl
      rw [hwriter] at hvisit
      exact hbefore (Option.some.inj hvisit ▸ ⟨_, _, rfl⟩)
    exact .inr ⟨writer, change, moment, (hothers writer hne).trans hwriter, rfl⟩

/-- Nothing is ahead while another visitor writes. -/
theorem Ahead.eq_nil (h : Ahead visits ahead) (hguarded : Guarded s visits)
    (hvisit : visits key = some visit) (hwriting : visit.isWriting = true)
    (hnot : ¬ visit.IsWritten) : ahead = [] := by
  rcases h with ⟨hnil, -⟩ | ⟨writer, change, moment, hwriter, -⟩
  · exact hnil
  · have hsame := hguarded.unique (any_isWriting hvisit hwriting) (any_isWriting hwriter rfl)
    rw [← hsame, hvisit] at hwriter
    exact absurd ⟨_, _, Option.some.inj hwriter⟩ hnot

/-- Who has written its line is the one whose entry is ahead. -/
theorem Ahead.eq_entry {change : Pending} (h : Ahead visits ahead) (hguarded : Guarded s visits)
    (hvisit : visits key = some (.written change (.ok ()))) :
    ∃ moment, ahead = [change.entry moment] := by
  rcases h with ⟨-, hnone⟩ | ⟨writer, change', moment, hwriter, rfl⟩
  · exact absurd ⟨_, _, rfl⟩ (hnone key _ hvisit)
  · have hsame := hguarded.unique (any_isWriting hvisit rfl) (any_isWriting hwriter rfl)
    rw [← hsame, hvisit] at hwriter
    cases hwriter
    exact ⟨moment, rfl⟩

/-- A store that has just been opened on an empty log has nothing in its books. -/
theorem Sound.first (site : Site log d₀ here base moments) (hnone : ∀ key, visits key = none) :
    Sound log d₀ here base today (.ofStore ⟨log, .ofEntries []⟩ d₀) visits [] where
  guarded := by
    refine ⟨rfl, (Permits.serves_ofNat 1).congr fun key => ?_, fun key hkey => ?_⟩
    · rw [hnone]
      exact ⟨False.elim, nofun⟩
    · rw [hnone] at hkey
      cases hkey
  books := by
    refine ⟨.empty, [], ⟨rfl, site.begins.holds_empty, Log.Ledger.orderly_empty log _,
      List.forall_mem_nil _, Nat.le_refl _, rfl, rfl⟩, .inl ⟨rfl, fun key visit hvisit => ?_⟩⟩
    rw [hnone] at hvisit
    cases hvisit
  few := Nat.le_refl _

theorem Sound.mono (h : Sound log d₀ here base today s visits published) {later : CivilDate}
    (hdate : today.upTo later) : Sound log d₀ here base later s visits published := by
  obtain ⟨l, ahead, hbooks, hahead⟩ := h.books
  exact ⟨h.guarded, ⟨l, ahead, hbooks.mono hdate, hahead⟩, h.few⟩

/-- Visitors that come and go outside do not matter. -/
theorem Sound.congr (h : Sound log d₀ here base today s visits published)
    (inside : ∀ key, (visits' key).filter Visit.isInside = (visits key).filter Visit.isInside) :
    Sound log d₀ here base today s visits' published := by
  have hmem : ∀ {v w : TaskKey → Option Visit}, (∀ key, (v key).filter Visit.isInside
      = (w key).filter Visit.isInside) → ∀ {key visit}, v key = some visit →
      visit.isInside = true → w key = some visit := by
    intro v w hvw key visit hv hin
    have hfilter : (w key).filter Visit.isInside = some visit := by
      rw [← hvw, hv, Option.filter_some, if_pos hin]
    exact (Option.filter_eq_some_iff.1 hfilter).1
  have hany : ∀ {P : Visit → Bool}, (∀ visit, P visit = true → visit.isInside = true) →
      ∀ key, (visits' key).any P = (visits key).any P := by
    intro P hP key
    rw [Bool.eq_iff_iff, Option.any_eq_true, Option.any_eq_true]
    constructor
    · rintro ⟨visit, hv, hp⟩
      exact ⟨visit, hmem inside hv (hP visit hp), hp⟩
    · rintro ⟨visit, hv, hp⟩
      exact ⟨visit, hmem (fun key => (inside key).symm) hv (hP visit hp), hp⟩
  obtain ⟨l, ahead, hbooks, hahead⟩ := h.books
  refine ⟨h.guarded.congr (fun key => by rw [hany fun _ hp => hp])
    (fun key => by rw [hany fun _ => Visit.isInside_of_isWriting]; exact id),
    ⟨l, ahead, hbooks, ?_⟩, h.few⟩
  rcases hahead with ⟨hnil, hnone⟩ | ⟨writer, change, moment, hwriter, hentry⟩
  · refine .inl ⟨hnil, fun key visit hv hw => hnone key visit ?_ hw⟩
    exact hmem inside hv (Visit.isInside_of_isWriting hw.isWriting)
  · exact .inr ⟨writer, change, moment,
      hmem (fun key => (inside key).symm) hwriter rfl, hentry⟩

/-- How many calls, published entries and visitors inside there are after a step. -/
theorem Moves.few {moment : Moment} (hmoves : Moves front moment now key s visit s' visit')
    (ready : visit.isInside = true → s.writer.holds key = true) {published' : List Log.Entry}
    (hpublishes : Publishes published visit published')
    (h : published.length + s.writer.users.length ≤ s.receipts.length) :
    published'.length + s'.writer.users.length ≤ s'.receipts.length := by
  cases hmoves
  case settled change =>
    have hrelease := Permits.length_users_release (ready rfl)
    cases hpublishes with
    | nothing hnot => exact absurd ⟨_, _, rfl⟩ hnot
    | change =>
        simp only [List.length_append, List.length_singleton]
        omega
  case admitted =>
    cases hpublishes
    have hrequest := Permits.length_users_request s.writer key
    simp only [List.length_cons]
    omega
  case exhausted | unknown | lookedLate | failed =>
    cases hpublishes
    have hrelease := Permits.length_users_release (ready rfl)
    simp only
    omega
  case refused | looked =>
    cases hpublishes
    exact Nat.le_succ_of_le h
  all_goals
    cases hpublishes
    exact h

/-- A step of a visitor keeps the lock and the books in order. As long as segments can be named, a
    line that is written is kept. -/
theorem Sound.step (h : Sound log d₀ here base (moments now).today s visits published)
    (site : Site log d₀ here base moments)
    (names : ∀ n < s.receipts.length, log.CanName (moments now).today n)
    (hmoves : Moves front (moments now) now key s visit s' visit')
    (hvisit : visits key = some visit)
    (ready : visit.isInside = true → s.writer.holds key = true)
    (hwritten : ∀ change outcome, visit = .written change outcome → outcome = .ok ())
    (hself : visits' key = some visit')
    (hothers : ∀ other, other ≠ key → visits' other = visits other) :
    (∀ change outcome, visit' = .written change outcome → outcome = .ok ()) ∧
      ∃ published', Publishes published visit published' ∧
        Sound log d₀ here base (moments now).today s' visits' published' := by
  obtain ⟨l, ahead, hbooks, hahead⟩ := h.books
  have hguarded := h.guarded.step hmoves hvisit ready hself hothers
  -- A step that writes no line and publishes nothing.
  have hplain : ¬ visit.IsWritten → ¬ visit'.IsWritten → s'.store.log = s.store.log →
      s'.disk = s.disk → s'.store.index.tasks = s.store.index.tasks →
      (∀ change outcome, visit' = .written change outcome → outcome = .ok ()) ∧
        ∃ published', Publishes published visit published' ∧
          Sound log d₀ here base (moments now).today s' visits' published' := by
    intro hbefore hafter hlog hdisk htasks
    refine ⟨fun change outcome he => absurd ⟨_, _, he⟩ hafter, published, .nothing hbefore,
      hguarded, ⟨l, ahead, hbooks.congr hlog hdisk htasks, ?_⟩, ?_⟩
    · exact hahead.of_others hvisit hself hothers hbefore hafter
    · exact hmoves.few ready (.nothing hbefore) h.few
  have hfew : ∀ published', Publishes published visit published' →
      published'.length + s'.writer.users.length ≤ s'.receipts.length :=
    fun published' hpublishes => hmoves.few ready hpublishes h.few
  cases hmoves with
  | failed => cases hwritten _ _ rfl
  | @wrote change outcome disk run =>
      have hnil := hahead.eq_nil h.guarded hvisit rfl nofun
      subst hnil
      -- The visitor itself is inside, so there are fewer entries than calls.
      have hroom : l.closed.length < s.receipts.length := by
        have hinside := Permits.holds_iff.1 (ready rfl)
        have hpos : 0 < s.writer.users.length :=
          List.length_pos_of_mem (List.mem_append_left _ hinside)
        have hclosed := hbooks.few
        rw [hbooks.entries, List.append_nil] at hclosed
        have := h.few
        omega
      obtain ⟨rfl, l', hbooks'⟩ := hbooks.wrote site (CivilDate.upTo_refl _) (site.plain now)
        (site.valid now) (fun n hn => names n (Nat.lt_of_le_of_lt hn hroom)) run
      refine ⟨fun change' outcome he => ?_, published, .nothing nofun, hguarded,
        ⟨l', _, hbooks', .inr ⟨key, change, _, hself, rfl⟩⟩, hfew _ (.nothing nofun)⟩
      cases he
      rfl
  | @settled change =>
      obtain ⟨moment, rfl⟩ := hahead.eq_entry h.guarded hvisit
      refine ⟨nofun, _, .change change moment, hguarded, ⟨l, [], hbooks.settled, .inl ⟨rfl, ?_⟩⟩,
        hfew _ (.change change moment)⟩
      intro other v hv hw
      by_cases hne : other = key
      · rw [hne, hself] at hv
        obtain ⟨_, _, rfl⟩ := hw
        cases hv
      · rw [hothers other hne] at hv
        exact hne (h.guarded.unique (any_isWriting hv hw.isWriting) (any_isWriting hvisit rfl))
  | _ => refine hplain ?_ ?_ rfl rfl rfl <;> rintro ⟨_, _, he⟩ <;> cases he

end Sound

end Reachability.StoreService
