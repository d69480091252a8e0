import TxLcn.Lib.Refinement
import TxLcn.Proof.GroupsApart
import TxLcn.Proof.FaultFree
import TxLcn.Tc.Groups

/-!
# Many groups at once

A group has been looked at as if there were no other, and as if the TM handled a
request in one go. This file says why that is right: in a run of any number of
groups, whose requests are handled command by command, each group goes through a
run of its own that is as simple as that. A request counts as handled when its
last command is taken, and what is then to be sent counts as in flight. A thread
that stops on the way has lost its request, or what it had left to send.

`groups_refine` asks for one thing: that no two requests of a group are at work on
its record at a time. Those of different groups may be.
-/

namespace TxLcn.Proof

open TxLcn.Lib TxLcn.Protocol TxLcn.Tm TxLcn.Tc Groups

variable {g c : String} {creator : String → String} {s t : Groups} {a : Commitment}
  {applicationName : String → Option String}

/-- A request of a group takes a command only while no other one is between two of its own. -/
def OneAtATime (s : Groups) : Groups.Event → Prop
  | .command g i => ∀ h ∈ (s.threads g).eraseIdx i, h.underway = false
  | _ => True

instance (s : Groups) (e : Groups.Event) : Decidable (OneAtATime s e) :=
  match e with
  | .command g i => inferInstanceAs (Decidable (∀ h ∈ (s.threads g).eraseIdx i, _))
  | .act _ _ | .begin _ _ _ _ _ | .send _ _ | .stop _ _ => inferInstanceAs (Decidable True)

/-! ## The business of a request -/

/-- **No command of a message's business but the last one writes.** -/
theorem business_writesLast (ev : Tm.Event) : ev.business.WritesLast := by
  cases ev with
  | create event k now =>
      simp only [Tm.Event.business, TransactionCreateEvent.business]
      split
      · exact .ret _
      · exact Prog.WritesLast.bind (.set _ _ _) fun _ => ⟨_, rfl⟩
  | join event k now =>
      simp only [Tm.Event.business, TransactionJoinEvent.business]
      split
      · exact .ret _
      · refine Prog.WritesLast.bind (.get fun v => ?_) fun _ => ⟨_, rfl⟩
        cases v with
        | none => exact .ret _
        | some G => exact .set _ _ _
  | notify event k =>
      simp only [Tm.Event.business, TransactionNotifyEvent.business]
      split
      · exact .ret _
      · refine Prog.WritesLast.bind (.get fun v => ?_) fun r => ?_
        · cases v with
          | none => exact .ret _
          | some G => exact .set _ _ _
        · cases r with
          | none => exact ⟨_, rfl⟩
          | some G => exact ⟨_, rfl⟩

/-- How far a thread is with a request of the group. -/
inductive ThreadOk (g : String) (store : String → Option TransactionGroup) (h : TmThread) :
    Prop where
  | returned (out : Outbox) (hrest : h.rest = .ret out)
      (hgroup : ∀ msg ∈ out, msg.2.groupId = some g) : ThreadOk g store h
  /-- It will end as the whole business would now. -/
  | working (ev : Tm.Event) (hev : requested h.message h.uniqueKey h.now = some ev)
      (hg : ev.groupId = some g) (hret : h.rest.isRet = false) (hkey : h.rest.OnKey g)
      (hlast : h.rest.WritesLast) (hbegun : h.begun = false → h.rest = ev.business)
      (hsame : Pool.SameEval g h.rest store ev.business store) : ThreadOk g store h

variable {h h' : TmThread} {store store' : String → Option TransactionGroup}

/-- The business of a request of a group takes a command at least. -/
theorem business_isRet {ev : Tm.Event} (hg : ev.groupId = some g) : ev.business.isRet = false := by
  cases ev with
  | create event k now =>
      have hgroup : event.groupId = some g := hg
      simp only [Tm.Event.business, TransactionCreateEvent.business, hgroup]
      rfl
  | join event k now =>
      have hgroup : event.groupId = some g := hg
      simp only [Tm.Event.business, TransactionJoinEvent.business, hgroup]
      rfl
  | notify event k =>
      have hgroup : event.groupId = some g := hg
      simp only [Tm.Event.business, TransactionNotifyEvent.business, hgroup]
      rfl

theorem business_of_group {ev : Tm.Event} (hg : ev.groupId = some g) : ev.business.OnKey g :=
  groupKey_of_some hg ▸ business_onKey ev

/-- As long as the record of the group stands, so does everything about it. -/
theorem ThreadOk.congr (hok : ThreadOk g store h) (hstore : store' g = store g) :
    ThreadOk g store' h := by
  cases hok with
  | returned out hrest hgroup => exact .returned out hrest hgroup
  | working ev hev hg hret hkey hlast hbegun hsame =>
      exact .working ev hev hg hret hkey hlast hbegun
        (hsame.congr hkey (business_of_group hg) hstore hstore)

/-- Who is not between two commands does not mind what is stored. -/
theorem ThreadOk.of_not_underway (hok : ThreadOk g store h) (h0 : h.underway = false) :
    ThreadOk g store' h := by
  cases hok with
  | returned out hrest hgroup => exact .returned out hrest hgroup
  | working ev hev hg hret hkey hlast hbegun hsame =>
      have hnot : h.begun = false := by simpa [TmThread.underway, hret] using h0
      refine .working ev hev hg hret hkey hlast hbegun ?_
      rw [hbegun hnot]
      exact ⟨rfl, rfl⟩

/-- What is left to be sent is about the group. -/
theorem ThreadOk.groupId_of_mem {out : Outbox} (hok : ThreadOk g store h)
    (hrest : h.rest = .ret out) : ∀ msg ∈ out, msg.2.groupId = some g := by
  cases hok with
  | returned out' hrest' hgroup =>
      obtain rfl : out = out' := Prog.ret.inj (hrest.symm.trans hrest')
      exact hgroup
  | working _ _ _ hret _ _ _ _ =>
      rw [hrest] at hret
      cases hret

/-! ## What a group shows -/

/-- The group, seen as if requests were handled in one go. -/
structure Shows (g : String) (s : Groups) (a : Commitment) : Prop where
  party : a.party = s.party g
  store : a.store g = s.store g
  flight : a.flight.Perm (s.flight g ++ (s.threads g).flatMap TmThread.pending)
  threads : ∀ h ∈ s.threads g, ThreadOk g s.store h

theorem shows_init (creator : String → String) (g : String) :
    Shows g (Groups.init creator) (Commitment.init g (creator g)) where
  party := rfl
  store := rfl
  flight := .refl _
  threads := by rintro h ⟨⟩

theorem pending_perm {l : List TmThread} {i : Nat} (hi : l[i]? = some h) :
    (l.flatMap TmThread.pending).Perm (h.pending ++ (l.eraseIdx i).flatMap TmThread.pending) := by
  obtain ⟨hlt, rfl⟩ := List.getElem?_eq_some_iff.mp hi
  exact ((List.getElem_cons_eraseIdx_perm hlt).flatMap_right _).symm

/-- One thread has something else left than before. -/
theorem pending_set {l : List TmThread} {i : Nat} (hi : l[i]? = some h) :
    ((l.set i h').flatMap TmThread.pending).Perm
      (h'.pending ++ (l.eraseIdx i).flatMap TmThread.pending) := by
  obtain ⟨hlt, rfl⟩ := List.getElem?_eq_some_iff.mp hi
  have hset : (l.set i h')[i]? = some h' := by simp [hlt]
  have := pending_perm hset
  rwa [List.eraseIdx_set_eq] at this

/-! ## Steps of the participants -/

/-- The same participants, with more packets in flight. -/
structure More (more : List Packet) (u a : Commitment) : Prop where
  party : a.party = u.party
  flight : a.flight.Perm (u.flight ++ more)

variable {u v : Commitment} {more : List Packet} {packet : Packet}

theorem take_more (ha : More more u a) (h : u.take packet = some v) :
    ∃ b, a.take packet = some b ∧ More more v b ∧ b.store = a.store := by
  obtain ⟨hmem, rfl⟩ := Commitment.take_some h
  have hmem' : packet ∈ a.flight := ha.flight.mem_iff.mpr (List.mem_append_left _ hmem)
  refine ⟨{ a with flight := a.flight.erase packet }, if_pos hmem', ⟨ha.party, ?_⟩, rfl⟩
  show (a.flight.erase packet).Perm (u.flight.erase packet ++ more)
  rw [← List.erase_append_left more hmem]
  exact ha.flight.erase packet

theorem move_more (applicationName : String → Option String) (ha : More more u a) (k : String)
    (next : Participant.Next) :
    More more (u.move applicationName k next) (a.move applicationName k next)
      ∧ (a.move applicationName k next).store = a.store := by
  refine ⟨?_, Commitment.move_store⟩
  obtain ⟨p, _ | message⟩ := next
  · refine ⟨?_, ha.flight⟩
    show Function.update a.party k p = Function.update u.party k p
    rw [ha.party]
  · refine ⟨?_, ?_⟩
    · show Function.update a.party k _ = Function.update u.party k _
      rw [ha.party]
    · show (a.flight ++ [_]).Perm (u.flight ++ [_] ++ more)
      rw [List.append_assoc]
      refine (ha.flight.append_right _).trans ?_
      rw [List.append_assoc]
      exact (List.perm_append_comm).append_left _

/-- **A participant does not mind what else is in flight**, nor what is stored. -/
theorem act_more {action : Action} (ha : More more u a)
    (hnot : ∀ k n message now, action ≠ .handle k n message now)
    (h : u.step applicationName action = some v) :
    ∃ b, a.step applicationName action = some b ∧ More more v b ∧ b.store = a.store := by
  cases action with
  | tryBegin k =>
      simp only [Commitment.step] at h ⊢
      split at h
      · rename_i hpc
        cases h
        obtain ⟨hmore, hstore⟩ := move_more applicationName ha k
          (u.party k).tryBeginTransaction
        refine ⟨_, ?_, hmore, hstore⟩
        rw [ha.party, hpc]
      · cases h
  | tryEnd k success capture =>
      simp only [Commitment.step] at h ⊢
      split at h
      · rename_i hpc
        cases h
        obtain ⟨hmore, hstore⟩ := move_more applicationName ha k
          ((u.party k).endBusiness success capture)
        refine ⟨_, ?_, hmore, hstore⟩
        rw [ha.party, hpc]
      · cases h
  | handle k n message now => exact absurd rfl (hnot k n message now)
  | answer k message succeeds =>
      obtain ⟨u', htake, h⟩ := Option.bind_eq_some_iff.mp h
      obtain ⟨next, hnext, h⟩ := Option.bind_eq_some_iff.mp h
      cases h
      obtain ⟨a', htake', hmore, hstore⟩ := take_more ha htake
      obtain ⟨hmore', hstore'⟩ := move_more applicationName hmore k next
      refine ⟨_, ?_, hmore', hstore'.trans hstore⟩
      refine Option.bind_eq_some_iff.mpr ⟨a', by rw [ha.party]; exact htake', ?_⟩
      refine Option.bind_eq_some_iff.mpr ⟨next, ?_, rfl⟩
      rw [hmore.party]
      exact hnext
  | expire k succeeds =>
      obtain ⟨next, hnext, h⟩ := Option.bind_eq_some_iff.mp h
      cases h
      obtain ⟨hmore, hstore⟩ := move_more applicationName ha k next
      exact ⟨_, Option.bind_eq_some_iff.mpr ⟨next, by rw [ha.party]; exact hnext, rfl⟩, hmore,
        hstore⟩
  | decide k event succeeds =>
      simp only [Commitment.step] at h ⊢
      split at h
      · rename_i hpc
        obtain ⟨u', htake, h⟩ := Option.bind_eq_some_iff.mp h
        cases h
        obtain ⟨a', htake', hmore, hstore⟩ := take_more ha htake
        obtain ⟨hmore', hstore'⟩ := move_more applicationName hmore k
          ((u'.party k).decided succeeds (some event), none)
        refine ⟨_, ?_, hmore', hstore'.trans hstore⟩
        rw [ha.party, hpc]
        refine Option.bind_eq_some_iff.mpr ⟨a', htake', ?_⟩
        rw [hmore.party]
        rfl
      · cases h
  | giveUp k =>
      simp only [Commitment.step] at h ⊢
      split at h
      · rename_i hpc
        cases h
        obtain ⟨hmore, hstore⟩ := move_more applicationName ha k
          ((u.party k).decided (fun _ => true) none, none)
        refine ⟨_, ?_, hmore, hstore⟩
        rw [ha.party, hpc]
      · cases h
  | lose packet => exact take_more ha h

/-- Packets get lost one after the other. -/
theorem exec_lose (applicationName : String → Option String) {packets : List Packet}
    (h : a.flight.Perm (packets ++ more)) :
    ∃ b, exec (Commitment.step applicationName) a (packets.map Action.lose) = some b
      ∧ b.party = a.party ∧ b.store = a.store ∧ b.flight.Perm more := by
  induction packets generalizing a with
  | nil => exact ⟨a, rfl, rfl, rfl, h⟩
  | cons packet packets ih =>
      have hmem : packet ∈ a.flight := h.mem_iff.mpr List.mem_cons_self
      have hrest : (a.flight.erase packet).Perm (packets ++ more) := by
        have herase := h.erase packet
        rwa [List.cons_append, List.erase_cons_head] at herase
      obtain ⟨b, hb, hparty, hstore, hflight⟩ :=
        ih (a := { a with flight := a.flight.erase packet }) hrest
      exact ⟨b, exec_cons_some.mpr ⟨_, if_pos hmem, hb⟩, hparty, hstore, hflight⟩

/-- Every step keeps a group tidy. -/
theorem tidy_step {action : Action} (hi : Tidy g c u)
    (h : u.step applicationName action = some v) : Tidy g c v := by
  cases action with
  | tryBegin k =>
      simp only [Commitment.step] at h
      split at h
      · rename_i hpc
        cases h
        exact tidy_move hi (Participant.sound_tryBeginTransaction (hi.parties k) hpc)
      · cases h
  | tryEnd k success capture =>
      simp only [Commitment.step] at h
      split at h
      · rename_i hpc
        cases h
        exact tidy_move hi (Participant.sound_endBusiness (hi.parties k) hpc success capture)
      · cases h
  | handle k n message now =>
      obtain ⟨u', htake, h⟩ := Option.bind_eq_some_iff.mp h
      obtain ⟨ev, hev, h⟩ := Option.bind_eq_some_iff.mp h
      cases h
      exact tidy_handle hi htake hev
  | answer k message succeeds =>
      obtain ⟨u', htake, h⟩ := Option.bind_eq_some_iff.mp h
      obtain ⟨next, hnext, h⟩ := Option.bind_eq_some_iff.mp h
      cases h
      have hi' := tidy_take hi htake
      exact tidy_move hi' (Participant.sound_resume (hi'.parties k) hnext)
  | expire k succeeds =>
      obtain ⟨next, hnext, h⟩ := Option.bind_eq_some_iff.mp h
      cases h
      exact tidy_move hi (Participant.sound_resume (hi.parties k) hnext)
  | decide k event succeeds =>
      simp only [Commitment.step] at h
      split at h
      · obtain ⟨u', htake, h⟩ := Option.bind_eq_some_iff.mp h
        cases h
        have hi' := tidy_take hi htake
        exact tidy_move hi' (Participant.sound_decided (hi'.parties k) succeeds (some event))
      · cases h
  | giveUp k =>
      simp only [Commitment.step] at h
      split at h
      · cases h
        exact tidy_move hi (Participant.sound_decided (hi.parties k) (fun _ => true) none)
      · cases h
  | lose packet => exact tidy_take hi h

/-! ## What answers an event -/

/-- The steps of the group, seen as if requests were handled in one go, for one event. -/
inductive GroupAnswers : Groups.Event → List Action → Prop where
  | act (g : String) (action : Action) : GroupAnswers (.act g action) [action]
  | begins (g k : String) (n : Nat) (message : Message) (now : Nat) :
      GroupAnswers (.begin g k n message now) []
  | works (g : String) (i : Nat) : GroupAnswers (.command g i) []
  /-- The last command of a request. -/
  | handles (g : String) (i : Nat) (k : String) (n : Nat) (message : Message) (now : Nat) :
      GroupAnswers (.command g i) [.handle k n message now]
  | sends (g : String) (i : Nat) : GroupAnswers (.send g i) []
  /-- What the thread had is lost. -/
  | stops (g : String) (i : Nat) (packets : List Packet) :
      GroupAnswers (.stop g i) (packets.map Action.lose)

/-- The event is answered by a run from `a` to what the group then shows. -/
def AnsweredBy (applicationName : String → Option String) (g : String) (t : Groups)
    (a : Commitment) (e : Groups.Event) : Prop :=
  ∃ as b, GroupAnswers e as ∧ exec (Commitment.step applicationName) a as = some b ∧ Shows g t b

theorem group_act_cases {action : Action}
    (h : s.step applicationName (.act g action) = some t) :
    (∀ k n message now, action ≠ .handle k n message now)
      ∧ ∃ u, (s.group g).step applicationName action = some u ∧ t = s.setGroup g u := by
  have hstep : (∀ k n message now, action ≠ .handle k n message now)
      ∧ ((s.group g).step applicationName action).map (s.setGroup g) = some t := by
    cases action with
    | handle k n message now => cases h
    | _ => exact ⟨by simp, h⟩
  obtain ⟨u, hu, ht⟩ := Option.map_eq_some_iff.mp hstep.2
  exact ⟨hstep.1, u, hu, ht.symm⟩

theorem answered_act {action : Action} (hs : Shows g s a)
    (h : s.step applicationName (.act g action) = some t) :
    AnsweredBy applicationName g t a (.act g action) := by
  obtain ⟨hnot, u, hu, rfl⟩ := group_act_cases h
  obtain ⟨b, hb, hmore, hstore⟩ := act_more (u := s.group g) ⟨hs.party, hs.flight⟩ hnot hu
  refine ⟨[action], b, .act g action, by rw [exec_singleton]; exact hb, ?_⟩
  refine ⟨?_, ?_, ?_, hs.threads⟩
  · rw [setGroup_party_self]
    exact hmore.party
  · rw [hstore]
    exact hs.store
  · rw [setGroup_flight_self]
    exact hmore.flight

theorem answered_begin {k : String} {n now : Nat} {message : Message} (hs : Shows g s a)
    (ha : Tidy g c a) (h : s.step applicationName (.begin g k n message now) = some t) :
    AnsweredBy applicationName g t a (.begin g k n message now) := by
  obtain ⟨u, htake, h⟩ := Option.bind_eq_some_iff.mp h
  obtain ⟨ev, hev, h⟩ := Option.bind_eq_some_iff.mp h
  cases h
  obtain ⟨hmem, rfl⟩ := Commitment.take_some htake
  have hin : Packet.request k n message ∈ a.flight :=
    hs.flight.mem_iff.mpr (List.mem_append_left _ hmem)
  have hg : ev.groupId = some g := requested_groupId (ha.packets _ hin) hev
  have hret : ev.business.isRet = false := business_isRet hg
  refine ⟨[], a, .begins g k n message now, rfl, ⟨?_, hs.store, ?_, ?_⟩⟩
  · show _ = (s.setGroup g _).party g
    rw [setGroup_party_self]
    exact hs.party
  · -- the request goes from what is in flight to the thread
    show a.flight.Perm ((s.setGroup g _).flight g ++ (Function.update s.threads g _ g).flatMap _)
    rw [setGroup_flight_self, Function.update_self, List.flatMap_append, List.flatMap_singleton,
      pending_of_working hret]
    show a.flight.Perm ((s.flight g).erase _ ++ _)
    refine hs.flight.trans ?_
    rw [← List.append_assoc]
    refine ((List.perm_cons_erase hmem).append_right _).trans ?_
    exact (List.perm_append_singleton _ _).symm
  · intro h hmem'
    rw [show ({ s.setGroup g _ with threads := _ } : Groups).threads g = _ from
      Function.update_self .., List.mem_append] at hmem'
    rcases hmem' with hold | hnew
    · exact hs.threads h hold
    · cases List.mem_singleton.mp hnew
      exact .working ev hev hg hret (business_of_group hg) (business_writesLast ev) (fun _ => rfl)
        ⟨rfl, rfl⟩

theorem mem_set_cases {l : List TmThread} {i : Nat} (hi : l[i]? = some h) {x : TmThread}
    (hx : x ∈ l.set i h') : x = h' ∨ x ∈ l.eraseIdx i := by
  obtain ⟨j, hj⟩ := List.mem_iff_getElem?.mp hx
  by_cases hji : j = i
  · subst hji
    have hlt : j < l.length := (List.getElem?_eq_some_iff.mp hi).1
    rw [List.getElem?_set_self hlt] at hj
    exact Or.inl (Option.some.inj hj).symm
  · rw [List.getElem?_set_ne (Ne.symm hji)] at hj
    exact Or.inr (List.mem_eraseIdx_iff_getElem?.mpr ⟨j, hji, hj⟩)

/-- What is in flight, with one thread on its own. -/
theorem Shows.flight_at {i : Nat} (hs : Shows g s a) (hi : (s.threads g)[i]? = some h) :
    a.flight.Perm (s.flight g
      ++ (h.pending ++ ((s.threads g).eraseIdx i).flatMap TmThread.pending)) :=
  hs.flight.trans ((pending_perm hi).append_left _)

/-- A thread goes on. -/
theorem shows_setThread (store : String → Option TransactionGroup) (h' : TmThread) {i : Nat}
    (hi : (s.threads g)[i]? = some h)
    (hparty : a.party = s.party g) (hstore : a.store g = store g)
    (hflight : a.flight.Perm (s.flight g
      ++ (h'.pending ++ ((s.threads g).eraseIdx i).flatMap TmThread.pending)))
    (hnew : ThreadOk g store h')
    (hothers : ∀ w ∈ (s.threads g).eraseIdx i, ThreadOk g store w) :
    Shows g { s.setThread g i h' with store } a where
  party := hparty
  store := hstore
  flight := by
    show a.flight.Perm (s.flight g ++ ((s.setThread g i h').threads g).flatMap _)
    rw [setThread_self]
    exact hflight.trans ((pending_set hi).symm.append_left _)
  threads := by
    intro w hw
    have hmem : w ∈ (s.threads g).set i h' := by
      rw [← setThread_self]
      exact hw
    rcases mem_set_cases hi hmem with rfl | hold
    · exact hnew
    · exact hothers w hold

/-- The TM, as far as one group can see, handles a request that has been at work until now. -/
theorem handle_shown (applicationName : String → Option String) {k : String} {n now : Nat}
    {message : Message} {ev : Tm.Event}
    (hflight : a.flight.Perm (.request k n message :: more))
    (hev : requested message k now = some ev) :
    ∃ b, a.step applicationName (.handle k n message now) = some b ∧ b.party = a.party
      ∧ b.store = (ev.business.eval a.store).2
      ∧ b.flight.Perm (more ++ (ev.business.eval a.store).1.map (Packet.ofOutbox n)) := by
  have hmem : Packet.request k n message ∈ a.flight := hflight.mem_iff.mpr List.mem_cons_self
  have herase := hflight.erase (.request k n message)
  rw [List.erase_cons_head] at herase
  refine ⟨({ a with flight := a.flight.erase (.request k n message) } : Commitment).handle n ev,
    ?_, rfl, rfl, herase.append_right _⟩
  refine Option.bind_eq_some_iff.mpr ⟨_, if_pos hmem, ?_⟩
  exact Option.bind_eq_some_iff.mpr ⟨ev, hev, rfl⟩

/-- A command of a request of the group. -/
theorem answered_command {i : Nat} (hs : Shows g s a) (hC : OneAtATime s (.command g i))
    (h : s.step applicationName (.command g i) = some t) :
    AnsweredBy applicationName g t a (.command g i) := by
  obtain ⟨w, hw, h⟩ := Option.bind_eq_some_iff.mp h
  obtain ⟨⟨rest, store⟩, hstep, h⟩ := Option.bind_eq_some_iff.mp h
  cases h
  have hothers : ∀ x ∈ (s.threads g).eraseIdx i, ThreadOk g store x :=
    fun x hx => (hs.threads x (List.mem_of_mem_eraseIdx hx)).of_not_underway (hC x hx)
  have hflight := hs.flight_at hw
  cases hs.threads w (List.mem_of_getElem? hw) with
  | returned out hrest _ =>
      rw [hrest] at hstep
      cases hstep
  | working ev hev hg hret hkey hlast hbegun hsame =>
      obtain ⟨hlast', hquiet⟩ := hlast.step hstep
      rw [pending_of_working hret] at hflight
      cases hdone : rest.isRet with
      | false =>
          -- nothing has been written, and the thread still has the request
          obtain rfl : store = s.store := hquiet hdone
          refine ⟨[], a, .works g i, rfl,
            shows_setThread s.store _ hw hs.party hs.store ?_ ?_ hothers⟩
          · rw [pending_of_working (h := { w with rest, begun := true }) hdone]
            exact hflight
          · refine .working ev hev hg hdone (hkey.of_step hstep) hlast' (by simp) ?_
            show Pool.SameEval g rest s.store ev.business s.store
            unfold Pool.SameEval
            rw [Prog.eval_of_step hstep]
            exact hsame
      | true =>
          -- this was the last command: here the request counts as handled
          obtain ⟨out, rfl⟩ : ∃ out, rest = .ret out := by
            cases rest with
            | ret out => exact ⟨out, rfl⟩
            | get _ _ => cases hdone
            | set _ _ _ => cases hdone
          have heval : (w.rest.eval s.store) = (out, store) := (Prog.eval_of_step hstep).symm
          obtain ⟨hout, hstored⟩ := (business_of_group hg).eval_congr hs.store
          rw [Pool.SameEval, heval] at hsame
          obtain ⟨b, hb, hparty, hstore, hflight'⟩ :=
            handle_shown applicationName (hflight.trans List.perm_middle) hev
          refine ⟨_, b, .handles g i _ _ _ _, by rw [exec_singleton]; exact hb,
            shows_setThread store _ hw (hparty.trans hs.party) ?_ ?_ ?_ hothers⟩
          · rw [hstore, hstored]
            exact hsame.2.symm
          · rw [pending_of_returned (h := { w with rest := .ret out, begun := true }) rfl]
            rw [hout, ← hsame.1, List.append_assoc] at hflight'
            exact hflight'.trans (List.perm_append_comm.append_left _)
          · refine .returned out rfl fun msg hmsg => ?_
            have hsent : out = (ev.business.eval s.store).1 := hsame.1
            rw [hsent] at hmsg
            rw [Tm.Event.groupId_of_mem_business hmsg, hg]

/-- What is sent about a group is for the group. -/
theorem addressee_of_groupId {message : Message} (hm : message.groupId = some g) :
    addressee g message = some g := by
  cases message with
  | commit event => exact hm
  | _ => rfl

theorem send_cases {i : Nat} (h : s.step applicationName (.send g i) = some t) :
    ∃ w msg out, (s.threads g)[i]? = some w ∧ w.rest = .ret (msg :: out)
      ∧ t = (s.setThread g i { w with rest := .ret out }).put
        (Packet.ofOutbox w.attempt msg) (addressee g msg.2) := by
  obtain ⟨w, hw, h⟩ := Option.bind_eq_some_iff.mp h
  split at h
  · rename_i msg out hrest
    exact ⟨w, msg, out, hw, hrest, (Option.some.inj h).symm⟩
  · cases h

theorem answered_send {i : Nat} (hs : Shows g s a)
    (h : s.step applicationName (.send g i) = some t) :
    AnsweredBy applicationName g t a (.send g i) := by
  obtain ⟨w, msg, out, hw, hrest, rfl⟩ := send_cases h
  have hflight := hs.flight_at hw
  rw [pending_of_returned hrest, List.map_cons] at hflight
  have hgroup := (hs.threads w (List.mem_of_getElem? hw)).groupId_of_mem hrest
  rw [addressee_of_groupId (hgroup msg List.mem_cons_self)]
  refine ⟨[], a, .sends g i, rfl, ?_⟩
  -- the message goes from the thread to what is in flight
  refine shows_setThread (s := s.put (Packet.ofOutbox w.attempt msg) (some g)) s.store
    { w with rest := .ret out } hw hs.party hs.store ?_ ?_ ?_
  · show a.flight.Perm (Function.update s.flight g (s.flight g ++ [_]) g ++ _)
    rw [Function.update_self, pending_of_returned (h := { w with rest := .ret out }) rfl,
      List.append_assoc]
    exact hflight
  · exact .returned out rfl fun msg' hmsg' => hgroup msg' (List.mem_cons_of_mem _ hmsg')
  · exact fun x hx => hs.threads x (List.mem_of_mem_eraseIdx hx)

theorem answered_stop {i : Nat} (hs : Shows g s a)
    (h : s.step applicationName (.stop g i) = some t) :
    AnsweredBy applicationName g t a (.stop g i) := by
  obtain ⟨w, hw, h⟩ := Option.bind_eq_some_iff.mp h
  cases h
  have hflight := (hs.flight_at hw).trans (List.perm_append_comm_assoc _ _ _)
  obtain ⟨b, hb, hparty, hstore, hflight'⟩ := exec_lose applicationName hflight
  refine ⟨_, b, .stops g i w.pending, hb, ?_⟩
  refine shows_setThread s.store { w with rest := .ret [] } hw
    (hparty.trans hs.party) (by rw [hstore]; exact hs.store) ?_ ?_ ?_
  · exact hflight'
  · exact .returned [] rfl (by simp)
  · exact fun x hx => hs.threads x (List.mem_of_mem_eraseIdx hx)

/-! ## The other groups -/

/-- An event of one group is not seen by another one. -/
theorem shows_other {k : String} {e : Groups.Event} {a' : Commitment}
    (hs : Shows e.groupId s a') (hk : k ≠ e.groupId)
    (h : s.step applicationName e = some t) (ha : Shows k s a) : Shows k t a := by
  have hsame : ∀ u : Groups, u.party k = s.party k → u.store k = s.store k →
      u.flight k = s.flight k → u.threads k = s.threads k → Shows k u a := by
    intro u hparty hstore hflight hthreads
    refine ⟨ha.party.trans hparty.symm, ha.store.trans hstore.symm, ?_, ?_⟩
    · rw [hflight, hthreads]
      exact ha.flight
    · intro w hw
      rw [hthreads] at hw
      exact (ha.threads w hw).congr hstore
  cases e with
  | act g action =>
      obtain ⟨_, u, _, rfl⟩ := group_act_cases h
      exact hsame _ (setGroup_party_of_ne hk) rfl (setGroup_flight_of_ne hk) rfl
  | begin g k' n message now =>
      obtain ⟨u, htake, h⟩ := Option.bind_eq_some_iff.mp h
      obtain ⟨ev, hev, h⟩ := Option.bind_eq_some_iff.mp h
      cases h
      exact hsame _ (setGroup_party_of_ne hk) rfl (setGroup_flight_of_ne hk)
        (Function.update_of_ne hk ..)
  | command g i =>
      obtain ⟨w, hw, h⟩ := Option.bind_eq_some_iff.mp h
      obtain ⟨⟨rest, store⟩, hstep, h⟩ := Option.bind_eq_some_iff.mp h
      cases h
      refine hsame _ rfl ?_ rfl (setThread_of_ne hk)
      cases hs.threads w (List.mem_of_getElem? hw) with
      | returned out hrest _ =>
          rw [hrest] at hstep
          cases hstep
      | working _ _ _ _ hkey _ _ _ => exact hkey.step_of_ne hstep hk
  | send g i =>
      obtain ⟨w, msg, out, hw, hrest, rfl⟩ := send_cases h
      have hg : addressee g msg.2 = some g := addressee_of_groupId
        ((hs.threads w (List.mem_of_getElem? hw)).groupId_of_mem hrest msg List.mem_cons_self)
      rw [hg]
      exact hsame _ rfl rfl (Function.update_of_ne hk ..) (setThread_of_ne hk)
  | stop g i =>
      obtain ⟨w, hw, h⟩ := Option.bind_eq_some_iff.mp h
      cases h
      exact hsame _ rfl rfl rfl (setThread_of_ne hk)

/-- **The groups refine, each for itself, the group whose requests are handled in one go.** -/
theorem groups_simulate (creator : String → String) (applicationName : String → Option String) :
    PartwiseSimulates (Groups.step applicationName) OneAtATime Groups.Event.groupId
      (Commitment.step applicationName) GroupAnswers (fun g => Tidy g (creator g)) Shows where
  keeps _ _ _ _ hi h := tidy_step hi h
  own s e t a _ hC h hi hs := by
    cases e with
    | act g action => exact answered_act hs h
    | begin g k n message now => exact answered_begin hs hi h
    | command g i => exact answered_command hs hC h
    | send g i => exact answered_send hs h
    | stop g i => exact answered_stop hs h
  other s e t k a hrelated _ h hk hs := by
    obtain ⟨a', _, ha'⟩ := hrelated e.groupId
    exact shows_other ha' hk h hs

/--
**Many groups are as many single ones.** In a run of any number of groups in which a
request takes a command only while no other one of its group is between two of its
own, each group goes through a run in which there is no other group and requests are
handled in one go. It is made of the group's own events, in order: the steps of its
participants as they are, the last command of a request as its handling, and losses
for what a thread had when it stopped. In the end the participants and the record are
the same, and in flight is what is in flight or still with a thread.
-/
theorem groups_refine (creator : String → String) (applicationName : String → Option String)
    (es : List Groups.Event) (g : String)
    (hC : AllSteps (Groups.step applicationName) OneAtATime (Groups.init creator) es)
    (hrun : exec (Groups.step applicationName) (Groups.init creator) es = some s) :
    ∃ ass a, List.Forall₂ GroupAnswers (es.filter fun e => e.groupId = g) ass
      ∧ exec (Commitment.step applicationName) (Commitment.init g (creator g)) ass.flatten = some a
      ∧ a.party = s.party g ∧ a.store g = s.store g
      ∧ a.flight.Perm (s.flight g ++ (s.threads g).flatMap TmThread.pending) := by
  have hany : AllSteps (Groups.step applicationName) (fun _ e => e.groupId = g → True)
      (Groups.init creator) es := by
    refine allSteps_of_forall ?_ _
    exact fun _ _ _ _ => trivial
  obtain ⟨ass, a, hanswers, ha, _, hs, _⟩ := (groups_simulate creator applicationName).exec_part
    (a := fun g => Commitment.init g (creator g)) (fun g => tidy_init g (creator g))
    (shows_init creator) hC hrun g (D := fun _ _ => True)
    (fun _ _ _ as _ _ _ _ => allSteps_of_forall (fun _ _ _ => trivial) _) hany
  exact ⟨ass, a, hanswers, ha, hs.party, hs.store, hs.flight⟩

/-! ## Two groups, one of which loses its request -/

/-- The group "h" is created by "d", every other one by "c". -/
def creatorOf (g : String) : String := if g = "h" then "d" else "c"

/-- The threads are at work on both groups when the one for "h" stops. -/
def untilJoined : List Groups.Event :=
  [.act "g" (.tryBegin "c"), .act "h" (.tryBegin "d"),
    .begin "g" "c" 1 (asSent "c" (.create (.new (some "g")))) 0,
    .begin "h" "d" 1 (asSent "d" (.create (.new (some "h")))) 0,
    .command "g" 0, .stop "h" 0, .send "g" 0,
    .act "g" (.answer "c" (asAnswered "c" (.create (.new (some "g")))) noFailure),
    .act "g" (.tryBegin "j"), .act "g" (.tryEnd "j" true .captured),
    .begin "g" "j" 1 (asSent "j" (.join (.new (some "g")))) 1,
    .command "g" 1, .command "g" 1, .send "g" 1,
    .act "g" (.answer "j" (asAnswered "j" (.join (.new (some "g")))) noFailure)]

/-- "j" has its decision before the answer to "c" is on its way. -/
def untilBothEnded : List Groups.Event :=
  untilJoined ++ [.act "g" (.tryEnd "c" true .captured),
    .begin "g" "c" 2 (asSent "c" (.notify (.new (some "g") true))) 2,
    .command "g" 2, .command "g" 2, .send "g" 2,
    .act "g" (.decide "j" (.new (some "g") true) noFailure), .send "g" 2,
    .act "g" (.answer "c" (asAnswered "c" (.notify (.new (some "g") true))) noFailure)]

theorem join_among_others : ∃ s as a,
    exec (Groups.step moduleNames) (Groups.init creatorOf) untilJoined = some s
      ∧ exec (Commitment.step moduleNames) (Commitment.init "g" "c") as = some a
      ∧ (a.party "j").pc = .waiting ∧ a.store "g" = s.store "g" := by
  have hrun : exec (Groups.step moduleNames) (Groups.init creatorOf) untilJoined = some _ := rfl
  obtain ⟨ass, a, _, ha, hparty, hstore, _⟩ :=
    groups_refine creatorOf moduleNames untilJoined "g" (by
      iterate 4 refine (allSteps_cons rfl).mpr ⟨trivial, ?_⟩
      refine (allSteps_cons rfl).mpr ⟨by decide, ?_⟩
      iterate 6 refine (allSteps_cons rfl).mpr ⟨trivial, ?_⟩
      iterate 2 refine (allSteps_cons rfl).mpr ⟨by decide, ?_⟩
      iterate 2 refine (allSteps_cons rfl).mpr ⟨trivial, ?_⟩
      trivial) hrun
  exact ⟨_, ass.flatten, a, hrun, ha, by rw [hparty]; rfl, hstore⟩

/-! ## A group in which nothing gets lost -/

/-- Nothing gets lost in the step of the group, as in `FaultFree`, and no thread stops. -/
def GroupFaultFree (c : String) (b : Bool) (s : Groups) : Groups.Event → Prop
  | .act g action => FaultFree c b (s.group g) action
  | .stop _ _ => False
  | _ => True

/-- What answers a step without a fault is without a fault. -/
theorem faultFree_answers {b : Bool} {e : Groups.Event} {as : List Action}
    (hs : Shows e.groupId s a) (hE : GroupFaultFree c b s e) (h : GroupAnswers e as) :
    AllSteps (Commitment.step applicationName) (FaultFree c b) a as := by
  cases h with
  | act g action =>
      have hparty : a.party = (s.group g).party := hs.party
      have ha : FaultFree c b a action := by
        cases action with
        | tryBegin k => exact hE.imp id fun hpc => by rw [hparty]; exact hpc
        | tryEnd k success capture =>
            unfold FaultFree
            rw [hparty]
            exact hE
        | _ => exact hE
      exact fun _ _ => ⟨ha, trivial⟩
  | handles => exact fun _ _ => ⟨trivial, trivial⟩
  | stops => exact absurd hE id
  | _ => trivial

end TxLcn.Proof
