import TxLcn.Lib.Exec
import TxLcn.Tc.Logged

/-!
# One row at a time

Until its cache is refreshed, a TC gives every row of its log the same id, and the
id is the primary key of the table. So there is one row at a time: as long as it
is there no other can be saved, and a business whose rows cannot be saved does not
get its connection captured.

A row goes when a participation that has recorded something is told to commit and
finds a connection for its group; what it deletes is whatever row has the id. A
decision to roll back deletes nothing, nor does a save that throws after its first
row: then the row stays until somebody else commits.
-/

namespace TxLcn.Proof

open TxLcn.Lib TxLcn.Protocol TxLcn.Tc TransactionLogExecutor SnowflakeConstant

/-- The database refuses a second row with an id. -/
def PrimaryKey (rejects : LogTable → TransactionLog → Bool) : Prop :=
  ∀ table transactionLog, transactionLog.id ∈ table.map TransactionLog.id →
    rejects table transactionLog = true

variable {rejects : LogTable → TransactionLog → Bool} {transactionLogs : List TransactionLog}
  {table : LogTable} {id : Long}

/-! ## Saving rows that share an id -/

/-- The first one is refused. -/
theorem saveLog_blocked (hkey : PrimaryKey rejects) (hrow : id ∈ table.map TransactionLog.id)
    (hlogs : ∀ transactionLog ∈ transactionLogs, transactionLog.id = id)
    (hne : transactionLogs ≠ []) : (saveLog rejects transactionLogs table).1 = false := by
  cases transactionLogs with
  | nil => exact absurd rfl hne
  | cons transactionLog transactionLogs =>
      have hid : transactionLog.id = id := hlogs transactionLog List.mem_cons_self
      rw [saveLog, if_pos (hkey table transactionLog (by rwa [hid]))]

/-- There may be one, if the database has room for it. -/
theorem saveLog_returns_iff (hkey : PrimaryKey rejects)
    (hlogs : ∀ transactionLog ∈ transactionLogs, transactionLog.id = id) :
    (saveLog rejects transactionLogs table).1 = true ↔ transactionLogs = []
      ∨ ∃ transactionLog, transactionLogs = [transactionLog]
        ∧ rejects table transactionLog = false := by
  cases transactionLogs with
  | nil => simp [saveLog]
  | cons first rest =>
      by_cases hreject : rejects table first = true
      · simp [saveLog, hreject]
      · have haccept : rejects table first = false := by simpa using hreject
        rw [saveLog, if_neg hreject]
        by_cases hrest : rest = []
        · subst hrest
          simp [saveLog, haccept]
        · -- the second one meets the row of the first
          have hfirst : first.id = id := hlogs first List.mem_cons_self
          have hrow : id ∈ (table ++ [first]).map TransactionLog.id := by simp [hfirst]
          have hblocked : (saveLog rejects rest (table ++ [first])).1 = false :=
            saveLog_blocked hkey hrow (fun log hlog => hlogs log (List.mem_cons_of_mem _ hlog))
              hrest
          simp [hblocked, hrest]

/-- Nothing is taken out of the table. -/
theorem mem_saveLog (h : id ∈ table.map TransactionLog.id) :
    id ∈ (saveLog rejects transactionLogs table).2.map TransactionLog.id := by
  rw [saveLog_table, List.map_append]
  exact List.mem_append_left _ h

/-! ## What has been recorded -/

/-- All that is listed has the id, and who has opened a connection has a list. -/
structure Entered (id : Long) (s : Captures) : Prop where
  logs : ∀ p q, s.participations p = some q → ∀ log ∈ q.transactionLogs, log.id = id
  opened : ∀ c p, s.owner c = some p →
    ∃ q, s.participations p = some q ∧ q.jdbcTransaction ≠ none

variable {c c' : Captures} {p : Nat} {q : Participation}

/-- A participation changes what it lists. -/
theorem Entered.setParticipation (hc : Entered id c)
    (hlogs : ∀ log ∈ q.transactionLogs, log.id = id)
    (hthere : (∃ connection, c.owner connection = some p) → q.jdbcTransaction ≠ none) :
    Entered id (c.setParticipation p q) where
  logs := by
    intro p' q' hq'
    by_cases hp : p' = p
    · subst hp
      rw [Captures.setParticipation_self] at hq'
      cases hq'
      exact hlogs
    · rw [Captures.setParticipation_of_ne hp] at hq'
      exact hc.logs p' q' hq'
  opened := by
    intro connection p' howner
    by_cases hp : p' = p
    · subst hp
      exact ⟨q, Captures.setParticipation_self, hthere ⟨connection, howner⟩⟩
    · rw [Captures.setParticipation_of_ne hp]
      exact hc.opened connection p' howner

/-- Whatever is left over on the thread has been listed before. -/
theorem entered_step {e : Captures.Event} (hc : Entered id c) (h : c.step e = some c')
    (hleft : ∀ p groupId transactionState j, e = .start p groupId transactionState (some j) →
      ∀ log ∈ j.transactionLogs, log.id = id) : Entered id c' := by
  cases Captures.stepped h with
  | @started p groupId transactionState leftover hnew =>
      refine hc.setParticipation ?_ ?_
      · cases leftover with
        | none => simp [Participation.transactionLogs]
        | some j => exact hleft p groupId transactionState j rfl
      · -- nobody has opened a connection for it
        rintro ⟨connection, howner⟩
        obtain ⟨q, hq, _⟩ := hc.opened connection p howner
        rw [hnew] at hq
        cases hq
  | @opened p connection q hq hd hfree =>
      have hset : Entered id (c.setParticipation p
          { q with jdbcTransaction := some { connection } }) := by
        refine hc.setParticipation ?_ ?_
        · simp [Participation.transactionLogs]
        · simp
      refine ⟨hset.logs, ?_⟩
      intro connection' p' howner
      dsimp only at howner
      by_cases hconn : connection' = connection
      · subst hconn
        rw [Function.update_self] at howner
        cases howner
        exact ⟨_, Captures.setParticipation_self, by simp⟩
      · rw [Function.update_of_ne hconn] at howner
        exact hset.opened connection' p' howner
  | called => exact ⟨hc.logs, hc.opened⟩
  | @decided p d succeeds q hq hd =>
      have hset : Entered id (c.setParticipation p { q with decision := some d }) := by
        refine hc.setParticipation (hc.logs p q hq) ?_
        rintro ⟨connection, howner⟩
        obtain ⟨q', hq', hthere⟩ := hc.opened connection p howner
        rw [hq] at hq'
        cases hq'
        exact hthere
      rcases Captures.finalise_cases c p q d succeeds with ⟨_, _, _, heq⟩ | ⟨_, heq⟩
      · rw [heq]
        exact ⟨hset.logs, hset.opened⟩
      · rw [heq]
        exact hset

/-- A TC that has been answered, and all that it has recorded since. -/
structure SharesLogId (id : Long) (s : Logged) : Prop where
  asked : SnowflakeInfo.asks s.cache = false
  cached : s.cache.lookup LOG_ID = some (.long id)
  entered : Entered id s.captures

variable {s t u v : Logged} {e : Logged.Event}

/-- A TC that has just been answered for the first time. -/
theorem sharesLogId_answered {event : SnowflakeCreateEvent} {g : String}
    (hasks : SnowflakeInfo.asks s.cache = true) (hg : event.groupId = some g)
    (hentered : Entered event.logId s.captures)
    (h : s.step rejects (.getGroupIdAndLogId (some event)) = some t) :
    SharesLogId event.logId t := by
  cases h
  refine ⟨?_, (SnowflakeInfo.lookup_answered hasks hg).2, hentered⟩
  rw [SnowflakeInfo.asks, SnowflakeInfo.getGroupIdAndLogId_answered hasks hg,
    Cache.lookup_setKey_self]
  rfl

/-- Reading the log id changes nothing that can be read. -/
theorem SharesLogId.of_reads {cache : Cache} {captures : Captures} {table : LogTable}
    {autoCommit : Nat → Bool} (hs : SharesLogId id s)
    (hread : ∀ key, cache.lookup key = s.cache.lookup key) (hentered : Entered id captures) :
    SharesLogId id { captures, cache, autoCommit, table } where
  asked := by
    show SnowflakeInfo.asks cache = false
    rw [SnowflakeInfo.asks, hread]
    exact hs.asked
  cached := (hread LOG_ID).trans hs.cached
  entered := hentered

/-- Of what one participation records, as of what it has recorded. -/
theorem entered_record (newSql : String) (now : Nat) (bits : Long) (hs : SharesLogId id s)
    (hq : s.captures.participations p = some q) :
    Entered id (s.record p q newSql now bits).captures := by
  rw [Logged.record_cached hs.cached]
  refine hs.entered.setParticipation ?_ ?_
  · intro log hlog
    unfold Participation.transactionLogs at hlog
    cases hj : q.jdbcTransaction with
    | none => simp [hj] at hlog
    | some j =>
        have hlogs := hs.entered.logs p q hq
        simp only [Participation.transactionLogs, hj] at hlogs
        simp only [hj, Option.map_some, List.mem_append, List.mem_singleton] at hlog
        rcases hlog with hlog | rfl
        · exact hlogs log hlog
        · rfl
  · rintro ⟨connection, howner⟩
    obtain ⟨q', hq', hthere⟩ := hs.entered.opened connection p howner
    rw [hq] at hq'
    cases hq'
    simpa using hthere

/-- Until the cache is refreshed. -/
theorem sharesLogId_step (hs : SharesLogId id s) (hkeep : ∀ key, e ≠ .refresh key)
    (h : s.step rejects e = some t) : SharesLogId id t := by
  cases e with
  | getGroupIdAndLogId reply =>
      cases h
      exact hs.of_reads (fun key => SnowflakeInfo.lookup_unanswered (Or.inl hs.asked)) hs.entered
  | refresh key => exact absurd rfl (hkeep key)
  | start p groupId transactionState thread =>
      obtain ⟨captures, hcaptures, rfl⟩ := Option.map_eq_some_iff.mp h
      refine hs.of_reads (fun _ => rfl) (entered_step hs.entered hcaptures ?_)
      intro p' g' state' j he log hlog
      injection he with _ _ _ hleft
      -- an earlier participation has listed it
      unfold Logged.leftBy at hleft
      obtain ⟨q, hq, hj⟩ := Option.bind_eq_some_iff.mp hleft
      obtain ⟨p₀, _, hq⟩ := Option.bind_eq_some_iff.mp hq
      refine hs.entered.logs p₀ q hq log ?_
      unfold Participation.transactionLogs
      rw [hj]
      exact hlog
  | openConnection p connection =>
      obtain ⟨captures, hcaptures, rfl⟩ := Option.map_eq_some_iff.mp h
      exact hs.of_reads (fun _ => rfl) (entered_step hs.entered hcaptures (by simp))
  | setAutoCommit p connection =>
      obtain ⟨q, _, rfl⟩ := Option.map_eq_some_iff.mp h
      exact hs.of_reads (fun _ => rfl) hs.entered
  | record p connection newSql now bits restored =>
      obtain ⟨q, hq, rfl⟩ := Option.map_eq_some_iff.mp h
      obtain ⟨_, hq, _⟩ := Captures.ownerOf_eq_some.mp hq
      have hentered := entered_record newSql now bits hs hq
      rw [Logged.record_cached hs.cached] at hentered ⊢
      exact hs.of_reads (fun _ => Cache.lookup_getLogId) hentered
  | commit p connection =>
      obtain ⟨q, hq, rfl⟩ := Option.map_eq_some_iff.mp h
      exact hs.of_reads (fun _ => rfl) ⟨hs.entered.logs, hs.entered.opened⟩
  | rollback p connection =>
      obtain ⟨captures, hcaptures, rfl⟩ := Option.map_eq_some_iff.mp h
      exact hs.of_reads (fun _ => rfl) (entered_step hs.entered hcaptures (by simp))
  | decide p state succeeds =>
      obtain ⟨captures, hcaptures, rfl⟩ := Option.map_eq_some_iff.mp h
      exact hs.of_reads (fun _ => rfl) (entered_step hs.entered hcaptures (by simp))

/-! ## While there is a row -/

/-- A call of `commit()` that saves rows and captures the connection. -/
def Saves (rejects : LogTable → TransactionLog → Bool) (s : Logged) : Logged.Event → Prop
  | .commit p connection => ∃ q, s.captures.ownerOf p connection = some q
      ∧ q.transactionLogs ≠ [] ∧ ∃ context, (s.saving rejects q).1 = .ok context
  | _ => False

/-- A decision that deletes rows, and that lasts. -/
def Deletes (s : Logged) : Logged.Event → Prop
  | .decide p state succeeds => s.deleted p state succeeds ≠ []
  | _ => False

theorem row_stays (hrow : id ∈ s.rows) (hnot : ¬ Deletes s e) (h : s.step rejects e = some t) :
    id ∈ t.rows := by
  cases e with
  | commit p connection =>
      obtain ⟨q, _, rfl⟩ := Option.map_eq_some_iff.mp h
      show id ∈ (s.saving rejects q).2.map TransactionLog.id
      rw [Logged.saving_table]
      exact mem_saveLog hrow
  | decide p state succeeds =>
      obtain ⟨captures, _, rfl⟩ := Option.map_eq_some_iff.mp h
      have hnone : s.deleted p state succeeds = [] := by
        by_contra hsome
        exact hnot hsome
      unfold Logged.rows
      simp only [hnone, List.not_mem_nil, not_false_eq_true, decide_true, List.filter_true]
      exact hrow
  | getGroupIdAndLogId reply => cases h; exact hrow
  | refresh key => cases h; exact hrow
  | start p groupId transactionState thread =>
      obtain ⟨captures, _, rfl⟩ := Option.map_eq_some_iff.mp h
      exact hrow
  | openConnection p connection =>
      obtain ⟨captures, _, rfl⟩ := Option.map_eq_some_iff.mp h
      exact hrow
  | setAutoCommit p connection =>
      obtain ⟨q, _, rfl⟩ := Option.map_eq_some_iff.mp h
      exact hrow
  | record p connection newSql now bits restored =>
      obtain ⟨q, _, rfl⟩ := Option.map_eq_some_iff.mp h
      exact hrow
  | rollback p connection =>
      obtain ⟨captures, _, rfl⟩ := Option.map_eq_some_iff.mp h
      exact hrow

/-- A connection is captured with no row, or with the only one. -/
theorem captures_iff {connection : Nat} (hkey : PrimaryKey rejects) (hs : SharesLogId id s)
    (hq : s.captures.ownerOf p connection = some q) :
    (∃ context, (s.saving rejects q).1 = .ok context) ↔ q.transactionLogs = []
      ∨ ∃ log, q.transactionLogs = [log] ∧ rejects s.table log = false := by
  obtain ⟨howner, hq, _⟩ := Captures.ownerOf_eq_some.mp hq
  obtain ⟨q', hq', hthere⟩ := hs.entered.opened connection p howner
  rw [hq] at hq'
  cases hq'
  obtain ⟨j, hj⟩ := Option.ne_none_iff_exists'.mp hthere
  rw [Logged.saving_ok_iff hj]
  exact saveLog_returns_iff hkey (hs.entered.logs p q hq)

/-- Who saves has recorded one statement, and the database makes a row of it. -/
theorem saves_one (hkey : PrimaryKey rejects) (hs : SharesLogId id s)
    (hsaves : Saves rejects s e) : ∃ p connection q log, e = .commit p connection
      ∧ s.captures.ownerOf p connection = some q ∧ q.transactionLogs = [log] ∧ log.id = id
      ∧ rejects s.table log = false := by
  cases e with
  | commit p connection =>
      obtain ⟨q, hq, hne, hok⟩ := hsaves
      rcases (captures_iff hkey hs hq).mp hok with hnil | ⟨log, hlog, haccept⟩
      · exact absurd hnil hne
      · obtain ⟨_, hthere, _⟩ := Captures.ownerOf_eq_some.mp hq
        have hid : log.id = id := hs.entered.logs p q hthere log (by simp [hlog])
        exact ⟨p, connection, q, log, rfl, hq, hlog, hid, haccept⟩
  | _ => exact hsaves.elim

theorem saves_finds_none (hkey : PrimaryKey rejects) (hs : SharesLogId id s)
    (hsaves : Saves rejects s e) : id ∉ s.rows := by
  obtain ⟨_, _, _, log, _, _, _, hid, haccept⟩ := saves_one hkey hs hsaves
  intro hrow
  have hreject : rejects s.table log = true := hkey s.table log (by rwa [hid])
  rw [haccept] at hreject
  cases hreject

theorem saves_leaves_one (hkey : PrimaryKey rejects) (hs : SharesLogId id s)
    (hsaves : Saves rejects s e) (h : s.step rejects e = some t) : id ∈ t.rows := by
  obtain ⟨p, connection, q, log, rfl, hq, hlog, hid, haccept⟩ := saves_one hkey hs hsaves
  simp only [Logged.step, hq, Option.map_some, Option.some.injEq] at h
  subst h
  show id ∈ (s.saving rejects q).2.map TransactionLog.id
  rw [Logged.saving_table, hlog]
  simp [saveLog, haccept, hid]

/-- What is deleted is the row that there is, whoever has saved it. -/
theorem deletes_row (hs : SharesLogId id s) (hdeletes : Deletes s e)
    (h : s.step rejects e = some t) : id ∉ t.rows := by
  cases e with
  | decide p state succeeds =>
      have hshared : ∀ deleted ∈ s.deleted p state succeeds, deleted = id := by
        intro deleted hmem
        unfold Logged.deleted at hmem
        split at hmem
        · simp at hmem
        · rename_i q hq
          have hlogs := hs.entered.logs p q (Captures.undecided_eq_some.mp hq).1
          split at hmem
          · split at hmem
            · obtain ⟨log, hlog, rfl⟩ := List.mem_map.mp hmem
              exact hlogs log hlog
            · simp at hmem
          · simp at hmem
      obtain ⟨deleted, hmem⟩ := List.exists_mem_of_ne_nil _ hdeletes
      have hid : id ∈ s.deleted p state succeeds := hshared deleted hmem ▸ hmem
      obtain ⟨captures, _, rfl⟩ := Option.map_eq_some_iff.mp h
      intro hrow
      obtain ⟨row, hkept, heq⟩ := List.mem_map.mp hrow
      have hnot := of_decide_eq_true (List.mem_filter.mp hkept).2
      rw [heq] at hnot
      exact hnot hid
  | _ => exact hdeletes.elim

/-! ## The run -/

theorem row_stays_run {es : List Logged.Event} (hrow : id ∈ s.rows)
    (hnot : AllSteps (Logged.step rejects) (fun u e => ¬ Deletes u e) s es)
    (hrun : exec (Logged.step rejects) s es = some t) : id ∈ t.rows :=
  exec_invariant_of_allSteps (I := fun u => id ∈ u.rows)
    (fun _ _ _ hrow hnot h => row_stays hrow hnot h) hrow hnot hrun

/-- Until the cache is refreshed. -/
theorem sharesLogId_run {es : List Logged.Event} (hs : SharesLogId id s)
    (hkeep : ∀ e ∈ es, ∀ key, e ≠ .refresh key)
    (hrun : exec (Logged.step rejects) s es = some t) : SharesLogId id t :=
  exec_invariant_of_allSteps (C := fun _ e => ∀ key, e ≠ .refresh key)
    (fun _ _ _ hs hkeep h => sharesLogId_step hs hkeep h) hs
    (allSteps_of_forall (fun e he _ => hkeep e he) s) hrun

/--
**A TC has one row at a time.** In every run of a TC after it has been answered and
until its cache is refreshed, a call of `commit()` gets the connection captured
exactly if nothing has been recorded, or one statement that the database makes a
row of; a deletion leaves no row; and once there is a row, some deletion comes
before the next call that saves one.
-/
theorem one_row_at_a_time (hkey : PrimaryKey rejects) {es : List Logged.Event}
    (hs : SharesLogId id s) (hkeep : ∀ e ∈ es, ∀ key, e ≠ .refresh key) :
    AllSteps (Logged.step rejects) (fun u e =>
        (∀ p connection q, e = .commit p connection →
          u.captures.ownerOf p connection = some q →
          ((∃ context, (u.saving rejects q).1 = .ok context) ↔ q.transactionLogs = []
            ∨ ∃ log, q.transactionLogs = [log] ∧ rejects u.table log = false))
        ∧ (Saves rejects u e → id ∉ u.rows ∧ ∀ t, u.step rejects e = some t → id ∈ t.rows)
        ∧ (Deletes u e → ∀ t, u.step rejects e = some t → id ∉ t.rows)) s es
      ∧ ∀ pre mid f post u v, es = pre ++ (mid ++ f :: post) →
        exec (Logged.step rejects) s pre = some u → id ∈ u.rows →
        exec (Logged.step rejects) u mid = some v → Saves rejects v f →
        ¬ AllSteps (Logged.step rejects) (fun w e => ¬ Deletes w e) u mid := by
  refine ⟨allSteps_iff_split.mpr ?_, ?_⟩
  · intro pre e post u u' hsplit hrun hstep
    have hu : SharesLogId id u := by
      refine sharesLogId_run hs (fun e' he' => hkeep e' ?_) hrun
      rw [hsplit]
      exact List.mem_append_left _ he'
    refine ⟨?_, ?_, ?_⟩
    · intro p connection q _ hq
      exact captures_iff hkey hu hq
    · intro hsaves
      exact ⟨saves_finds_none hkey hu hsaves, fun t ht => saves_leaves_one hkey hu hsaves ht⟩
    · exact fun hdeletes t ht => deletes_row hu hdeletes ht
  · intro pre mid f post u v hsplit hpre hrow hmid hsaves hnone
    have hrun : exec (Logged.step rejects) s (pre ++ mid) = some v :=
      exec_append_some.mpr ⟨u, hpre, hmid⟩
    have hv : SharesLogId id v := by
      refine sharesLogId_run hs (fun e' he' => hkeep e' ?_) hrun
      rw [hsplit, ← List.append_assoc]
      exact List.mem_append_left _ he'
    have hstays : id ∈ v.rows := row_stays_run hrow hnone hmid
    exact saves_finds_none hkey hv hsaves hstays

/-- A database that stores whatever it has room for. -/
def duplicate (table : LogTable) (transactionLog : TransactionLog) : Bool :=
  transactionLog.id ∈ table.map TransactionLog.id

/-- What a TC is after its first answer. -/
def afterAnswer : Logged :=
  { cache := SnowflakeInfo.getGroupIdAndLogId {} (some { groupId := some "g", logId := 7 }) }

/-- A participation that executes one statement on the connection of its number. -/
def oneStatement (p : Nat) (groupId : String) : List Logged.Event :=
  [.start p groupId .JOIN none, .openConnection p p, .setAutoCommit p p,
    .record p p "update account set balance = 0 where id in ('1')" 0 1 true]

/-- The first one has called `commit()`, the second one has not. -/
def bothRecorded : List Logged.Event :=
  oneStatement 0 "g" ++ oneStatement 1 "h" ++ [.commit 0 0]

/-- It is refused until the first one is told to commit. -/
theorem one_row_second_refused : ∃ u, exec (Logged.step duplicate) afterAnswer bothRecorded = some u
    ∧ 7 ∈ u.rows ∧ ¬ Saves duplicate u (.commit 1 1) := by
  have hkey : PrimaryKey duplicate := by
    intro table transactionLog hmem
    simpa [duplicate] using hmem
  have hfirst : SharesLogId 7 afterAnswer := by
    have hstep : Logged.step duplicate {} (.getGroupIdAndLogId
        (some { groupId := some "g", logId := 7 })) = some afterAnswer := rfl
    refine sharesLogId_answered rfl rfl ⟨?_, ?_⟩ hstep
    · intro p q hq
      cases hq
    · intro connection p howner
      cases howner
  have hkeep : ∀ e ∈ bothRecorded ++ [.commit 1 1], ∀ key, e ≠ Logged.Event.refresh key := by
    simp [bothRecorded, oneStatement]
  refine ⟨_, rfl, by decide, fun hsaves => ?_⟩
  exact (one_row_at_a_time hkey hfirst hkeep).2 bothRecorded [] (.commit 1 1) [] _ _ rfl rfl
    (by decide) rfl hsaves trivial

end TxLcn.Proof
