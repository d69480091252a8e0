import Mathlib.Data.List.Nodup
import TxLcn.Tc.Identity

/-!
# Whether transactions and log rows have distinct identities

A pair of ids is received once and then read from the cache as often as somebody
asks. Two transactions created on one pair have the same group id; two log rows
have the same primary key. If the group id is not in the cache, because no TM
has answered yet or because twelve hours have passed, a transaction has none.

`identities_distinct_iff`: identities are distinct exactly when each received id
is used once, while it is there, and what is drawn at random hits nothing else.
-/

namespace TxLcn.Proof

open TxLcn.Lib TxLcn.Protocol TxLcn.Tc CommonConstant SnowflakeConstant

variable {Th : Type}

/-- Every transaction has a group id, no two the same; no two log rows have the same id. -/
structure DistinctIdentities (s : TcState Th) : Prop where
  groupId_ne_none : none ∉ s.groupIds
  groupIds_nodup : s.groupIds.Nodup
  logIds_nodup : s.logIds.Nodup

/--
A transaction is created while a received group id is in the cache, and is the
first since it was received. A log row that finds a received log id is the first
to do so, and the id has not been drawn before; one that finds none draws an id
that no row has.
-/
def FirstUse (s : TcState Th) : IdentityEvent Th → Prop
  | .newTransaction _ _ =>
      s.groupIdTaken = false ∧ ∃ g, s.cache.lookup GROUP_ID = some (.string g)
  | .newTransactionLog th _ _ bits => s.current th ≠ none →
      match s.cache.lookup LOG_ID with
      | some (.long id) => s.logIdTaken = false ∧ id ∉ s.drawn
      | _ => bits ∉ s.logIds
  | _ => True

/-- How what is in the cache, what was issued and what was used hang together. -/
structure IdentityInv (s : TcState Th) : Prop where
  distinct : DistinctIdentities s
  /-- A group id in the cache is a received one; the flag says whether it is in use. -/
  group : ∀ v, s.cache.lookup GROUP_ID = some v → ∃ g, v = .string g
    ∧ g ∈ s.issued.map Prod.fst ∧ (some g ∈ s.groupIds ↔ s.groupIdTaken = true)
  /-- Only received group ids are in use. -/
  group_issued : ∀ g, some g ∈ s.groupIds → g ∈ s.issued.map Prod.fst
  /-- A log id in the cache is in use if the flag says so, or if it was drawn. -/
  log : ∀ id, s.cache.lookup LOG_ID = some (.long id) → id ∈ s.issued.map Prod.snd
    ∧ (id ∈ s.logIds ↔ s.logIdTaken = true ∨ id ∈ s.drawn)
  /-- Only received and drawn log ids are in use, and every drawn one is. -/
  log_known : ∀ id ∈ s.logIds, id ∈ s.issued.map Prod.snd ∨ id ∈ s.drawn
  drawn_used : ∀ id ∈ s.drawn, id ∈ s.logIds

theorem identityInv_init : IdentityInv ({} : TcState Th) where
  distinct := ⟨List.not_mem_nil, List.nodup_nil, List.nodup_nil⟩
  group := by intro v hv; simp [Cache.lookup_eq] at hv
  group_issued := by intro g hg; exact absurd hg List.not_mem_nil
  log := by intro id hid; simp [Cache.lookup_eq] at hid
  log_known := by intro id hid; exact absurd hid List.not_mem_nil
  drawn_used := by intro id hid; exact absurd hid List.not_mem_nil

/-! ## One event at a time -/

variable {s t : TcState Th}

theorem mem_groupIds_snoc {info : TransactionInfo} {o : Option String} :
    o ∈ (s.created ++ [info]).map (·.groupId) ↔ o ∈ s.groupIds ∨ o = info.groupId := by
  rw [List.map_append, List.map_singleton, List.mem_append, List.mem_singleton]
  rfl

theorem nodup_groupIds_snoc {info : TransactionInfo} :
    ((s.created ++ [info]).map (·.groupId)).Nodup
      ↔ info.groupId ∉ s.groupIds ∧ s.groupIds.Nodup := by
  rw [List.map_append, List.map_singleton, ← List.concat_eq_append, List.nodup_concat]
  rfl

theorem mem_logIds_snoc {log : TransactionLog} {id : Long} :
    id ∈ (s.logs ++ [log]).map (·.id) ↔ id ∈ s.logIds ∨ id = log.id := by
  rw [List.map_append, List.map_singleton, List.mem_append, List.mem_singleton]
  rfl

theorem nodup_logIds_snoc {log : TransactionLog} :
    ((s.logs ++ [log]).map (·.id)).Nodup ↔ log.id ∉ s.logIds ∧ s.logIds.Nodup := by
  rw [List.map_append, List.map_singleton, ← List.concat_eq_append, List.nodup_concat]
  rfl

/-- Nothing new can be read, and nothing is created. -/
theorem IdentityInv.of_reads {cache : Cache} {current : Th → Option TransactionInfo}
    (h : IdentityInv s)
    (hread : ∀ k v, cache.lookup k = some v → s.cache.lookup k = some v) :
    IdentityInv { s with cache, current } where
  distinct := ⟨h.distinct.1, h.distinct.2, h.distinct.3⟩
  group := by intro v hv; exact h.group v (hread _ _ hv)
  group_issued := h.group_issued
  log := by intro id hid; exact h.log id (hread _ _ hid)
  log_known := h.log_known
  drawn_used := h.drawn_used

/-- A pair is received: neither of its ids is in use, unless the log id was drawn. -/
theorem inv_received {event : SnowflakeCreateEvent} {g : String} (h : IdentityInv s)
    (hasks : SnowflakeInfo.asks s.cache = true) (hg : event.groupId = some g)
    (hfreshG : g ∉ s.issued.map Prod.fst) (hfreshL : event.logId ∉ s.issued.map Prod.snd) :
    IdentityInv { s with
      cache := SnowflakeInfo.getGroupIdAndLogId s.cache (some event)
      issued := s.issued ++ [(g, event.logId)]
      groupIdTaken := false
      logIdTaken := false } := by
  obtain ⟨hlookG, hlookL⟩ := SnowflakeInfo.lookup_answered hasks hg
  refine ⟨⟨h.distinct.1, h.distinct.2, h.distinct.3⟩, ?_, ?_, ?_, ?_, h.drawn_used⟩
  · intro v hv
    dsimp only at hv
    rw [hlookG, Cache.notNull] at hv
    split at hv
    · exact absurd hv (by simp)
    · refine ⟨g, (Option.some.inj hv).symm, by simp, ?_⟩
      have hunused : some g ∉ s.groupIds := fun hmem => hfreshG (h.group_issued g hmem)
      exact ⟨fun hmem => absurd hmem hunused, fun hf => absurd hf (by simp)⟩
  · intro g' hmem
    rw [List.map_append]
    exact List.mem_append_left _ (h.group_issued g' hmem)
  · intro id hid
    dsimp only at hid
    rw [hlookL] at hid
    cases hid
    refine ⟨by simp, ?_⟩
    refine ⟨?_, ?_⟩
    · intro hmem
      rcases h.log_known _ hmem with hissued | hdrawn
      · exact absurd hissued hfreshL
      · exact Or.inr hdrawn
    · -- the flag has just been cleared: only a drawn id can be in use
      intro huse
      rcases huse with hf | hdrawn
      · exact absurd hf (by simp)
      · exact h.drawn_used _ hdrawn
  · intro id hid
    rw [List.map_append]
    exact (h.log_known id hid).imp (List.mem_append_left _) (fun hd => hd)

/-- A transaction takes the group id in the cache, and nobody has taken it before. -/
theorem inv_created {cache : Cache} {current : Th → Option TransactionInfo}
    {info : TransactionInfo} {g : String} (h : IdentityInv s)
    (hread : ∀ k, cache.lookup k = s.cache.lookup k)
    (hlook : s.cache.lookup GROUP_ID = some (.string g)) (htaken : s.groupIdTaken = false)
    (hinfo : info.groupId = some g) :
    IdentityInv
      { s with cache, current, created := s.created ++ [info], groupIdTaken := true } := by
  obtain ⟨g', hv, hissued, huse⟩ := h.group _ hlook
  cases hv
  have hunused : some g ∉ s.groupIds := fun hmem => by
    have := huse.mp hmem
    rw [htaken] at this
    exact absurd this (by simp)
  refine ⟨⟨?_, ?_, h.distinct.3⟩, ?_, ?_, ?_, h.log_known, h.drawn_used⟩
  · intro hmem
    rcases mem_groupIds_snoc.mp hmem with hold | hnew
    · exact h.distinct.1 hold
    · exact absurd (hnew.trans hinfo) (by simp)
  · show ((s.created ++ [info]).map (·.groupId)).Nodup
    rw [nodup_groupIds_snoc, hinfo]
    exact ⟨hunused, h.distinct.2⟩
  · intro v hv
    dsimp only at hv
    rw [hread, hlook] at hv
    cases hv
    exact ⟨g, rfl, hissued, ⟨fun _ => rfl, fun _ => mem_groupIds_snoc.mpr (Or.inr hinfo.symm)⟩⟩
  · intro g' hmem
    rcases mem_groupIds_snoc.mp hmem with hold | hnew
    · exact h.group_issued g' hold
    · cases hnew.trans hinfo; exact hissued
  · intro id hid
    exact h.log id ((hread LOG_ID).symm.trans hid)

/-- A log row takes the log id in the cache, and nobody has it. -/
theorem inv_logged {cache : Cache} {log : TransactionLog} (h : IdentityInv s)
    (hread : ∀ k, cache.lookup k = s.cache.lookup k)
    (hlook : s.cache.lookup LOG_ID = some (.long log.id)) (hunused : log.id ∉ s.logIds) :
    IdentityInv { s with cache, logs := s.logs ++ [log], logIdTaken := true } := by
  obtain ⟨hissued, _⟩ := h.log _ hlook
  refine ⟨⟨h.distinct.1, h.distinct.2, ?_⟩, ?_, h.group_issued, ?_, ?_, ?_⟩
  · show ((s.logs ++ [log]).map (·.id)).Nodup
    exact nodup_logIds_snoc.mpr ⟨hunused, h.distinct.3⟩
  · intro v hv
    exact h.group v ((hread GROUP_ID).symm.trans hv)
  · intro id hid
    dsimp only at hid
    rw [hread, hlook] at hid
    cases hid
    exact ⟨hissued, ⟨fun _ => Or.inl rfl, fun _ => mem_logIds_snoc.mpr (Or.inr rfl)⟩⟩
  · intro id hid
    rcases mem_logIds_snoc.mp hid with hold | rfl
    · exact h.log_known id hold
    · exact Or.inl hissued
  · intro id hid
    exact mem_logIds_snoc.mpr (Or.inl (h.drawn_used id hid))

/-- A log row draws an id that nobody has. -/
theorem inv_drawn {cache : Cache} {log : TransactionLog} (h : IdentityInv s)
    (hread : ∀ k, cache.lookup k = s.cache.lookup k)
    (hlook : ∀ id, s.cache.lookup LOG_ID ≠ some (.long id)) (hunused : log.id ∉ s.logIds) :
    IdentityInv { s with cache, logs := s.logs ++ [log], drawn := s.drawn ++ [log.id] } := by
  refine ⟨⟨h.distinct.1, h.distinct.2, ?_⟩, ?_, h.group_issued, ?_, ?_, ?_⟩
  · show ((s.logs ++ [log]).map (·.id)).Nodup
    exact nodup_logIds_snoc.mpr ⟨hunused, h.distinct.3⟩
  · intro v hv
    exact h.group v ((hread GROUP_ID).symm.trans hv)
  · intro id hid
    exact absurd ((hread LOG_ID).symm.trans hid) (hlook id)
  · intro id hid
    rw [List.mem_append, List.mem_singleton]
    rcases mem_logIds_snoc.mp hid with hold | rfl
    · exact (h.log_known id hold).imp (fun hi => hi) Or.inl
    · exact Or.inr (Or.inr rfl)
  · intro id hid
    rw [List.mem_append, List.mem_singleton] at hid
    exact mem_logIds_snoc.mpr (hid.imp (h.drawn_used id) (fun he => he))

variable [DecidableEq Th]

theorem identityInv_step {ev : IdentityEvent Th} (h : IdentityInv s) (hc : FirstUse s ev)
    (hstep : s.step ev = some t) : IdentityInv t := by
  cases ev with
  | getGroupIdAndLogId reply =>
      rcases TcState.receive_cases hstep with ⟨hun, rfl⟩ | ⟨event, g, ha, rfl, hg, hfg, hfl, rfl⟩
      · exact h.of_reads fun k v hv => (SnowflakeInfo.lookup_unanswered hun).symm.trans hv
      · exact inv_received h ha hg hfg hfl
  | refresh key =>
      cases hstep
      exact h.of_reads fun k v hv => Cache.lookup_of_lookup_refresh hv
  | newTransaction th uuid =>
      rw [TcState.step_newTransaction] at hstep
      obtain rfl := Option.some.inj hstep
      obtain ⟨htaken, g, hlook⟩ := hc
      exact inv_created h (fun k => Cache.lookup_getGroupId) hlook htaken
        (Cache.getGroupId_string hlook)
  | joinTransaction th groupId =>
      cases hstep
      exact h.of_reads fun k v hv => hv
  | clear th =>
      cases hstep
      exact h.of_reads fun k v hv => hv
  | newTransactionLog th sql now bits =>
      cases hcur : s.current th with
      | none =>
          simp only [TcState.step, TransactionLog.new, hcur, Option.map_none, Option.some.injEq]
            at hstep
          cases hstep
          exact h.of_reads fun k v hv => Cache.lookup_getLogId.symm.trans hv
      | some info =>
          have hfirst := hc (by rw [hcur]; simp)
          rcases TcState.step_newTransactionLog sql now bits hcur with
            ⟨id, hlook, hs⟩ | ⟨hlook, hs⟩
          · rw [hlook] at hfirst
            obtain ⟨htaken, hdrawn⟩ := hfirst
            cases hs.symm.trans hstep
            refine inv_logged h (fun k => Cache.lookup_getLogId) hlook fun hmem => ?_
            rcases (h.log id hlook).2.mp hmem with ht | hd
            · rw [htaken] at ht; exact absurd ht (by simp)
            · exact hdrawn hd
          · have hunused : bits ∉ s.logIds := by
              revert hfirst
              split
              · rename_i id hid; exact absurd hid (hlook id)
              · exact fun hb => hb
            cases hs.symm.trans hstep
            exact inv_drawn h (fun k => Cache.lookup_getLogId) hlook hunused

/-- A use that is not the first shows at once. -/
theorem not_distinct_step {ev : IdentityEvent Th} (h : IdentityInv s) (hc : ¬ FirstUse s ev)
    (hstep : s.step ev = some t) : ¬ DistinctIdentities t := by
  intro hd
  apply hc
  cases ev with
  | getGroupIdAndLogId reply => trivial
  | refresh key => trivial
  | joinTransaction th groupId => trivial
  | clear th => trivial
  | newTransaction th uuid =>
      rw [TcState.step_newTransaction] at hstep
      obtain rfl := Option.some.inj hstep
      cases hlook : s.cache.lookup GROUP_ID with
      | none =>
          -- nothing in the cache: the transaction gets no group id
          refine absurd ?_ hd.groupId_ne_none
          simp [TcState.groupIds, Cache.getGroupId_none hlook]
      | some v =>
          obtain ⟨g, rfl, _, huse⟩ := h.group v hlook
          refine ⟨?_, g, hlook⟩
          by_contra htaken
          rw [Bool.not_eq_false] at htaken
          have hunused := (nodup_groupIds_snoc.mp hd.groupIds_nodup).1
          rw [Cache.getGroupId_string hlook] at hunused
          exact hunused (huse.mpr htaken)
  | newTransactionLog th sql now bits =>
      intro hcur
      obtain ⟨info, hinfo⟩ := Option.ne_none_iff_exists'.mp hcur
      have hnd := hd.logIds_nodup
      rcases TcState.step_newTransactionLog sql now bits hinfo with
        ⟨id, hlook, hs⟩ | ⟨hlook, hs⟩
      · cases hs.symm.trans hstep
        have hunused : id ∉ s.logIds := (nodup_logIds_snoc.mp hnd).1
        rw [(h.log id hlook).2, not_or, Bool.not_eq_true] at hunused
        rw [hlook]
        exact hunused
      · cases hs.symm.trans hstep
        have hunused : bits ∉ s.logIds := (nodup_logIds_snoc.mp hnd).1
        split
        · rename_i id hid; exact absurd hid (hlook id)
        · exact hunused

/-! ## Whole runs -/

/--
**Identities are distinct exactly when** every use of a received id is its first,
made while the id is in the cache, and every id that is drawn hits no other.
-/
theorem identities_distinct_iff (es : List (IdentityEvent Th)) :
    AllStates TcState.step DistinctIdentities {} es ↔ AllSteps TcState.step FirstUse {} es :=
  allStates_iff_allSteps (I := IdentityInv) (fun _ h => h.distinct)
    (fun _ _ _ h hc hstep => identityInv_step h hc hstep)
    (fun _ _ _ h hc hstep => not_distinct_step h hc hstep) identityInv_init

/-- One reply, two transactions: both are in the group the TM issued. -/
theorem identities_not_always_distinct :
    ¬ ∀ es : List (IdentityEvent Unit), AllStates TcState.step DistinctIdentities {} es := by
  intro h
  have hd := (h [.getGroupIdAndLogId (some { groupId := some "g", logId := 7 }),
    .newTransaction () "u", .newTransaction () "v"]).last rfl
  exact absurd hd.groupIds_nodup (by decide)

end TxLcn.Proof
