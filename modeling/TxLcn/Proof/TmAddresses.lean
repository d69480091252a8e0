import Mathlib.Data.List.DropRight
import TxLcn.Tc.TmServerRunner

/-!
# The configured TMs that are connected to

The pattern takes an item apart at its last colon. What it does not match is
passed over; but a number that is too large for a port is an exception, which
takes all items with it, and the schedule. Another exception ends the schedule
when the list that a tick goes through is appended to meanwhile.

`addresses_iff` says that this is all that goes wrong.
-/

namespace TxLcn.Proof

open TxLcn.Lib TxLcn.Tc TmServerRunner

/-! ## What an item denotes -/

/-- The text without the white space around it. -/
def strip (text : List Char) : List Char := (text.dropWhile whiteSpace).rdropWhile whiteSpace

/-- What stands before and after the last colon. -/
def atLastColon : List Char → Option (List Char × List Char)
  | [] => none
  | c :: text =>
      match atLastColon text with
      | some (before, after) => some (c :: before, after)
      | none => if c = ':' then some ([], text) else none

/-- The host and the digits of an item that has them. -/
def hostPort (item : List Char) : Option (List Char × List Char) :=
  (atLastColon (strip item)).filter fun (host, digits) =>
    host.all (fun c => !lineTerminator c) && !digits.isEmpty && digits.all Char.isDigit

/-- The address that an item denotes. -/
def addressOf (item : String) : Option (String × Nat) :=
  match hostPort item.toList with
  | some (host, digits) =>
      if digitsValue digits ≤ 65535 then some (String.ofList host, digitsValue digits) else none
  | none => none

/-- The digits of an item denote no port. -/
def BeyondPort (item : String) : Prop :=
  ∃ host digits, hostPort item.toList = some (host, digits) ∧ 65535 < digitsValue digits

variable {text before after host digits white white' : List Char}

theorem atLastColon_none : atLastColon text = none ↔ ':' ∉ text := by
  induction text with
  | nil => simp [atLastColon]
  | cons c text ih =>
      unfold atLastColon
      cases h : atLastColon text with
      | some r =>
          have hmem : ':' ∈ text := by
            by_contra hno
            rw [ih.mpr hno] at h
            cases h
          simp [hmem]
      | none =>
          have hno := ih.mp h
          dsimp only
          by_cases hc : c = ':'
          · simp [hc]
          · simp [hc, hno, Ne.symm hc]

theorem atLastColon_append (hafter : ':' ∉ after) :
    atLastColon (before ++ ':' :: after) = some (before, after) := by
  induction before with
  | nil =>
      rw [List.nil_append, atLastColon, atLastColon_none.mpr hafter]
      rfl
  | cons c before ih => rw [List.cons_append, atLastColon, ih]

theorem atLastColon_eq (h : atLastColon text = some (before, after)) :
    text = before ++ ':' :: after := by
  induction text generalizing before with
  | nil => cases h
  | cons c text ih =>
      unfold atLastColon at h
      split at h
      · rename_i before' after' hrest
        cases h
        rw [ih hrest]
        rfl
      · split at h
        · rename_i hc
          cases h
          rw [hc]
          rfl
        · cases h

/-! ## The pattern -/

/-- No digit is white space. -/
theorem not_whiteSpace_of_isDigit {c : Char} (h : c.isDigit = true) : whiteSpace c = false := by
  cases hw : whiteSpace c with
  | false => rfl
  | true =>
      simp only [whiteSpace, decide_eq_true_eq, List.mem_cons, List.not_mem_nil, or_false] at hw
      rcases hw with rfl | rfl | rfl | rfl | rfl | rfl <;> cases h

/-- White space around a text that neither starts nor ends with it. -/
theorem strip_around (hwhite : ∀ c ∈ white, whiteSpace c = true)
    (hwhite' : ∀ c ∈ white', whiteSpace c = true)
    (hfirst : ∀ c ∈ text.head?, whiteSpace c = false)
    (hlast : ∀ c ∈ text.getLast?, whiteSpace c = false) (hne : text ≠ []) :
    strip (white ++ text ++ white') = text := by
  have hleft : (white ++ text ++ white').dropWhile whiteSpace = text ++ white' := by
    rw [List.append_assoc, List.dropWhile_append_of_pos hwhite]
    cases text with
    | nil => exact absurd rfl hne
    | cons c text =>
        have hc : whiteSpace c = false := hfirst c rfl
        rw [List.cons_append, List.dropWhile_cons_of_neg (by simp [hc])]
  have hright : text.rdropWhile whiteSpace = text := by
    rw [List.rdropWhile_eq_self_iff]
    intro hl
    rw [hlast _ (List.getLast?_eq_getLast_of_ne_nil hl ▸ rfl)]
    simp
  unfold strip
  rw [hleft]
  calc (text ++ white').rdropWhile whiteSpace = text.rdropWhile whiteSpace := by
        rw [List.rdropWhile, List.reverse_append,
          List.dropWhile_append_of_pos (by simpa using hwhite')]
        rfl
    _ = text := hright

/-- A text is what is left of it and the white space around that. -/
theorem strip_split : ∃ white white', text = white ++ strip text ++ white'
    ∧ (∀ c ∈ white, whiteSpace c = true) ∧ ∀ c ∈ white', whiteSpace c = true := by
  refine ⟨text.takeWhile whiteSpace, (text.dropWhile whiteSpace).rtakeWhile whiteSpace, ?_, ?_, ?_⟩
  · unfold strip
    rw [List.append_assoc, List.rdropWhile_append_rtakeWhile, List.takeWhile_append_dropWhile]
  · exact List.all_eq_true.mp List.all_takeWhile
  · intro c hc
    exact List.mem_rtakeWhile_imp hc

theorem takes_star {accepts : Char → Bool} {greedy : Bool} {part : List Char} :
    (Item.star accepts greedy).Takes part ↔ ∀ c ∈ part, accepts c = true :=
  ⟨fun h => h.accepts, fun h => ⟨Nat.zero_le _, fun _ hmost => (by cases hmost), h⟩⟩

theorem takes_plus {accepts : Char → Bool} {part : List Char} :
    (Item.plus accepts).Takes part ↔ part ≠ [] ∧ ∀ c ∈ part, accepts c = true := by
  constructor
  · intro h
    exact ⟨List.length_pos_iff.mp h.least, h.accepts⟩
  · intro ⟨hne, h⟩
    exact ⟨List.length_pos_iff.mpr hne, fun _ hmost => (by cases hmost), h⟩

theorem takes_literal {c : Char} {part : List Char} :
    (Item.literal c).Takes part ↔ part = [c] := by
  constructor
  · intro h
    have hleast := h.least
    have hmost := h.most 1 rfl
    obtain ⟨c', rfl⟩ := List.length_eq_one_iff.mp (Nat.le_antisymm hmost hleast)
    have hsame := h.accepts c' List.mem_cons_self
    simp only [Item.literal, decide_eq_true_eq] at hsame
    rw [hsame]
  · intro h
    subst h
    refine ⟨Nat.le_refl 1, fun most hmost => by cases hmost; exact Nat.le_refl 1, ?_⟩
    intro c' hc'
    rw [List.mem_singleton.mp hc']
    simp [Item.literal]

/-- What the pattern takes a text apart into. -/
structure TakenApart (white host digits white' : List Char) : Prop where
  white : ∀ c ∈ white, whiteSpace c = true
  host : ∀ c ∈ host, lineTerminator c = false
  digits : digits ≠ [] ∧ ∀ c ∈ digits, c.isDigit = true
  white' : ∀ c ∈ white', whiteSpace c = true

theorem fits_iff {parts : List (List Char)} : Fits TxConfig.pattern parts
    ↔ ∃ white host digits white', parts = [white, host, [':'], digits, white']
      ∧ TakenApart white host digits white' := by
  unfold TxConfig.pattern
  constructor
  · intro h
    cases h with
    | @cons _ white _ _ hwhite h =>
    cases h with
    | @cons _ host _ _ hhost h =>
    cases h with
    | cons hcolon h =>
    cases h with
    | @cons _ digits _ _ hdigits h =>
    cases h with
    | @cons _ white' _ _ hwhite' h =>
    cases h
    rw [takes_literal.mp hcolon]
    refine ⟨white, host, digits, white', rfl, takes_star.mp hwhite, ?_, takes_plus.mp hdigits,
      takes_star.mp hwhite'⟩
    intro c hc
    simpa using takes_star.mp hhost c hc
  · intro ⟨white, host, digits, white', hparts, h⟩
    rw [hparts]
    refine .cons (takes_star.mpr h.white) (.cons (takes_star.mpr ?_) (.cons (takes_literal.mpr rfl)
      (.cons (takes_plus.mpr h.digits) (.cons (takes_star.mpr h.white') .nil))))
    intro c hc
    simpa using h.host c hc

/-- The host does not start with white space if the first part is as long as it can be. -/
theorem hostPort_of_takenApart (h : TakenApart white host digits white')
    (hfirst : ∀ c ∈ host.head?, whiteSpace c = false) :
    hostPort (white ++ (host ++ ':' :: digits) ++ white') = some (host, digits) := by
  have hstrip : strip (white ++ (host ++ ':' :: digits) ++ white') = host ++ ':' :: digits := by
    refine strip_around h.white h.white' ?_ ?_ (by simp)
    · cases host with
      | nil =>
          intro c hc
          cases hc
          rfl
      | cons c host => exact hfirst
    · intro c hc
      refine not_whiteSpace_of_isDigit (h.digits.2 c ?_)
      rw [List.getLast?_append_cons, List.getLast?_cons_of_ne_nil h.digits.1] at hc
      exact List.mem_of_getLast? hc
  have hcolon : ':' ∉ digits := by
    intro hmem
    cases h.digits.2 ':' hmem
  unfold hostPort
  rw [hstrip, atLastColon_append hcolon, Option.filter_some, if_pos]
  have hhost : host.all (fun c => !lineTerminator c) = true := by
    rw [List.all_eq_true]
    intro c hc
    rw [h.host c hc]
    rfl
  have hdigits : digits.all Char.isDigit = true := List.all_eq_true.mpr h.digits.2
  have hne : digits.isEmpty = false := List.isEmpty_eq_false_iff.mpr h.digits.1
  simp only [hhost, hdigits, hne, Bool.not_false, Bool.and_self]

theorem takenApart_of_hostPort (h : hostPort text = some (host, digits)) :
    ∃ white white', text = white ++ (host ++ ':' :: digits) ++ white'
      ∧ TakenApart white host digits white' := by
  unfold hostPort at h
  rw [Option.filter_eq_some_iff] at h
  obtain ⟨hcolon, hwhole⟩ := h
  simp only [Bool.and_eq_true, List.all_eq_true, Bool.not_eq_true', List.isEmpty_eq_false_iff]
    at hwhole
  obtain ⟨⟨hhost, hne⟩, hdigits⟩ := hwhole
  obtain ⟨white, white', htext, hwhite, hwhite'⟩ := @strip_split text
  rw [atLastColon_eq hcolon] at htext
  exact ⟨white, white', htext, hwhite, hhost, ⟨hne, hdigits⟩, hwhite'⟩

/-- The pattern takes from a text its host and its digits, if it has them. -/
theorem matchAll_pattern {parts : List (List Char)}
    (h : matchAll TxConfig.pattern text = some parts) :
    ∃ white host digits white', parts = [white, host, [':'], digits, white']
      ∧ hostPort text = some (host, digits) := by
  obtain ⟨hfits, htext⟩ := matchAll_sound h
  obtain ⟨white, host, digits, white', rfl, hapart⟩ := fits_iff.mp hfits
  refine ⟨white, host, digits, white', rfl, ?_⟩
  have hflatten : white ++ (host ++ ':' :: digits) ++ white' = text := by
    rw [← htext]
    simp
  rw [← hflatten]
  refine hostPort_of_takenApart hapart ?_
  intro c hc
  cases hspace : whiteSpace c with
  | false => rfl
  | true =>
      -- then the first part could have been longer
      obtain ⟨host', rfl⟩ : ∃ host', host = c :: host' := by
        cases host with
        | nil => cases hc
        | cons c' host' =>
            cases hc
            exact ⟨host', rfl⟩
      have hlonger : TakenApart (white ++ [c]) host' digits white' := by
        refine ⟨?_, fun c' hc' => hapart.host c' (List.mem_cons_of_mem c hc'), hapart.digits,
          hapart.white'⟩
        intro c' hc'
        rcases List.mem_append.mp hc' with hc' | hc'
        · exact hapart.white c' hc'
        · rwa [List.mem_singleton.mp hc']
      have hle := greedy_longest rfl h (fits_iff.mpr ⟨_, _, _, _, rfl, hlonger⟩)
        (by rw [← htext]; simp)
      rw [List.length_append, List.length_singleton] at hle
      omega

theorem matchAll_pattern_none (h : matchAll TxConfig.pattern text = none) :
    hostPort text = none := by
  cases hsome : hostPort text with
  | none => rfl
  | some r =>
      obtain ⟨host, digits⟩ := r
      obtain ⟨white, white', htext, hapart⟩ := takenApart_of_hostPort hsome
      have hmatch := matchAll_isSome (fits_iff.mpr ⟨white, host, digits, white', rfl, hapart⟩)
        (by rw [htext]; simp : _ = text)
      rw [h] at hmatch
      cases hmatch

/-! ## The addresses -/

theorem addressFormat_eq (item : String) : TxConfig.addressFormat item =
    match hostPort item.toList with
    | none => .ok none
    | some (host, digits) => (do
        let port ← parseInt digits
        let address ← InetSocketAddress.new host port
        pure (some address)) := by
  unfold TxConfig.addressFormat
  cases h : matchAll TxConfig.pattern item.toList with
  | none =>
      rw [matchAll_pattern_none h]
  | some parts =>
      obtain ⟨white, host, digits, white', rfl, hsome⟩ := matchAll_pattern h
      rw [hsome]

/-- A number that is too large throws, whichever way. -/
theorem addressFormat_beyond {item : String} (h : BeyondPort item) :
    ∃ e, TxConfig.addressFormat item = .error e := by
  obtain ⟨host, digits, hsome, hlarge⟩ := h
  rw [addressFormat_eq, hsome]
  have hrange : InetSocketAddress.new host (digitsValue digits)
      = .error .illegalArgumentException :=
    if_neg (by omega)
  unfold parseInt
  dsimp only
  split
  · refine ⟨.illegalArgumentException, ?_⟩
    simp only [bind, Except.bind, hrange]
  · exact ⟨.numberFormatException, rfl⟩

theorem addressFormat_of_not_beyond {item : String} (h : ¬ BeyondPort item) :
    TxConfig.addressFormat item = .ok (addressOf item) := by
  rw [addressFormat_eq]
  unfold addressOf
  cases hsome : hostPort item.toList with
  | none => rfl
  | some r =>
      obtain ⟨host, digits⟩ := r
      have hsmall : digitsValue digits ≤ 65535 := by
        by_contra hlarge
        exact h ⟨host, digits, hsome, by omega⟩
      have hparse : parseInt digits = .ok (digitsValue digits) := if_pos (by omega)
      have hnew : InetSocketAddress.new host (digitsValue digits)
          = .ok (String.ofList host, digitsValue digits) := if_pos hsmall
      simp only [bind, Except.bind, hparse, hnew, if_pos hsmall]
      rfl

/-- The addresses come together if no item throws. -/
theorem addressesOf_iff {tms : List String} :
    TxConfig.addressesOf tms = .ok (tms.filterMap addressOf) ↔ ∀ item ∈ tms, ¬ BeyondPort item := by
  induction tms with
  | nil => exact iff_of_true rfl (by simp)
  | cons item tms ih =>
      rw [TxConfig.addressesOf]
      by_cases hbeyond : BeyondPort item
      · obtain ⟨e, he⟩ := addressFormat_beyond hbeyond
        rw [he]
        refine iff_of_false ?_ fun h => h item List.mem_cons_self hbeyond
        intro h
        cases h
      · rw [addressFormat_of_not_beyond hbeyond]
        have hitems : (∀ item' ∈ item :: tms, ¬ BeyondPort item')
            ↔ ∀ item' ∈ tms, ¬ BeyondPort item' := by
          simp [hbeyond]
        rw [hitems, ← ih]
        have hcons : (item :: tms).filterMap addressOf
            = (addressOf item).toList ++ tms.filterMap addressOf := by
          rw [List.filterMap_cons]
          cases addressOf item <;> rfl
        rw [hcons]
        cases TxConfig.addressesOf tms with
        | error e => exact iff_of_false (fun h => by cases h) fun h => by cases h
        | ok addresses =>
            simp only [bind, Except.bind, pure, Except.pure, Except.ok.injEq]
            exact List.append_right_inj _

/-! ## The ticks -/

/-- It is time for a tick. -/
def isTick : TmServerRunner.Event → Bool
  | .tick => true
  | _ => false

/--
The schedule goes on. Every tick that is over has connected to the addresses; the
one that is under way has, or has still to come to them.
-/
structure ConnectsToAll (addresses : List (String × Nat)) (s : TmServerRunner) : Prop where
  scheduled : s.cancelled = false
  connected : ∀ list ∈ s.connected, ∀ a ∈ addresses, a ∈ list
  forEach : ∀ forEach ∈ s.forEach, ∀ a ∈ addresses, a ∈ forEach.connected ++ forEach.left

/-- A tick that goes on finds its list as it was when it began. -/
def Unmodified (s : TmServerRunner) : TmServerRunner.Event → Prop
  | .next => ∀ forEach ∈ s.forEach,
      s.modCount forEach.iNetSocketAddresses = forEach.expectedModCount
  | _ => True

/-- The lists have the addresses, and the ticks connect to them. -/
structure Connecting (configured : List (String × Nat)) (s : TmServerRunner) : Prop where
  lists : HasConfigured configured s
  connects : ConnectsToAll configured s

variable {config : TxConfig} {configured : List (String × Nat)} {s t : TmServerRunner}
  {e : TmServerRunner.Event}

/-- A tick that is over is recorded, whether or not it has come to its end. -/
theorem connected_step (h : s.step config e = some t) :
    t.connected.length + t.forEach.toList.length
      = s.connected.length + s.forEach.toList.length + if isTick e then 1 else 0 := by
  cases step_moved h with
  | tick hfree =>
      rw [isTick, if_pos rfl, hfree]
      unfold TmServerRunner.tick
      -- it is recorded also when the schedule has ended, or ends with it
      split
      · simp [hfree]
      · split
        · simp [hfree]
        · rename_i t i list hcurrent
          rcases current_ok hcurrent with ⟨_, _, rfl⟩ | ⟨_, _, rfl⟩ <;> simp
  | next hforEach hnext =>
      rw [hforEach]
      cases hnext <;> simp [TmServerRunner.finished, isTick]
  | test | request | addAll => rfl

theorem connected_length {es : List TmServerRunner.Event}
    (h : exec (TmServerRunner.step config) s es = some t) :
    t.connected.length + t.forEach.toList.length
      = s.connected.length + s.forEach.toList.length + es.countP isTick := by
  induction es generalizing s with
  | nil =>
      cases h
      simp
  | cons e es ih =>
      obtain ⟨s', hstep, hrest⟩ := exec_cons_some.mp h
      rw [ih hrest, List.countP_cons, connected_step hstep]
      omega

/-- A tick starts with a list that has the addresses. -/
theorem connectsToAll_tick (hs : Connecting configured s)
    (hconfig : config.txManagerAddresses = .ok configured) (hfree : s.forEach = none) :
    ConnectsToAll configured (s.tick config) := by
  rcases tick_cases hconfig with ⟨hcancelled, _⟩ | ⟨t, i, list, _, hcurrent, htick⟩
  · rw [hs.connects.scheduled] at hcancelled
    cases hcancelled
  · rw [htick]
    have hlist : ∀ a ∈ configured, a ∈ list := by
      rcases current_ok hcurrent with ⟨haddresses, _, _⟩ | ⟨_, hthere, _⟩
      · rw [hconfig] at haddresses
        cases haddresses
        exact fun _ ha => ha
      · exact hs.lists.lists list (List.mem_of_getElem? hthere)
    have hsame : t.cancelled = s.cancelled ∧ t.connected = s.connected := by
      rcases current_ok hcurrent with ⟨_, _, rfl⟩ | ⟨_, _, rfl⟩ <;> exact ⟨rfl, rfl⟩
    refine ⟨hsame.1.trans hs.connects.scheduled, ?_, ?_⟩
    · rw [hsame.2]
      exact hs.connects.connected
    · intro forEach heq a ha
      cases heq
      exact hlist a ha

theorem connectsToAll_next {forEach : ForEach} (hs : ConnectsToAll configured s)
    (hforEach : s.forEach = some forEach)
    (hcount : s.modCount forEach.iNetSocketAddresses = forEach.expectedModCount)
    (hnext : Next s forEach t) : ConnectsToAll configured t := by
  cases hnext with
  | @address address left _ hleft =>
      refine ⟨hs.scheduled, hs.connected, ?_⟩
      intro forEach' heq a ha
      cases heq
      -- the address goes from what is left to what has been connected to
      have hmem := hs.forEach forEach hforEach a ha
      rw [hleft] at hmem
      rwa [List.append_assoc, List.singleton_append]
  | finished _ hleft =>
      refine ⟨hs.scheduled, ?_, fun _ hnone => by cases hnone⟩
      intro list hlist a ha
      rcases List.mem_append.mp hlist with hlist | hlist
      · exact hs.connected list hlist a ha
      · have hmem := hs.forEach forEach hforEach a ha
        rw [hleft, List.append_nil] at hmem
        rwa [List.mem_singleton.mp hlist]
  | modified hmodified => exact absurd hcount hmodified

theorem connecting_step (hs : Connecting configured s)
    (hconfig : config.txManagerAddresses = .ok configured) (hC : Unmodified s e)
    (h : s.step config e = some t) : Connecting configured t := by
  refine ⟨hasConfigured_step hs.lists hconfig h, ?_⟩
  cases step_moved h with
  | tick hfree => exact connectsToAll_tick hs hconfig hfree
  | @next forEach _ hforEach hnext =>
      exact connectsToAll_next hs.connects hforEach (hC forEach hforEach) hnext
  | test | request | addAll =>
      exact ⟨hs.connects.scheduled, hs.connects.connected, hs.connects.forEach⟩

/-- What is appended meanwhile ends the schedule. -/
theorem not_connectsToAll_step (hC : ¬ Unmodified s e) (h : s.step config e = some t) :
    ¬ ConnectsToAll configured t := by
  intro ht
  cases step_moved h with
  | tick | test | request | addAll => exact hC trivial
  | @next forEach _ hforEach hnext =>
      cases hnext with
      | address hcount | finished hcount =>
          refine hC fun forEach' heq => ?_
          rw [hforEach] at heq
          cases heq
          exact hcount
      | modified => exact absurd ht.scheduled (by simp)

/--
**The addresses that the items denote come back, and are connected to on every
tick, exactly when** no item has a number that is too large for a port, and nothing
is appended to a list while a tick goes through it.
-/
theorem addresses_iff (tms : List String) (tmResource : Int)
    (es : List TmServerRunner.Event) :
    (TxConfig.txManagerAddresses { tms := some tms, tmResource } = .ok (tms.filterMap addressOf)
        ∧ AllStates (TmServerRunner.step { tms := some tms, tmResource })
          (ConnectsToAll (tms.filterMap addressOf)) {} es
        ∧ ∀ s, exec (TmServerRunner.step { tms := some tms, tmResource }) {} es = some s →
          s.connected.length + s.forEach.toList.length = es.countP isTick)
      ↔ (∀ item ∈ tms, ¬ BeyondPort item)
        ∧ AllSteps (TmServerRunner.step { tms := some tms, tmResource }) Unmodified {} es := by
  rw [← addressesOf_iff]
  have hruns (hconfig : TxConfig.txManagerAddresses { tms := some tms, tmResource }
        = .ok (tms.filterMap addressOf)) :
      AllStates (TmServerRunner.step { tms := some tms, tmResource })
          (ConnectsToAll (tms.filterMap addressOf)) {} es
        ↔ AllSteps (TmServerRunner.step { tms := some tms, tmResource }) Unmodified {} es :=
    allStates_iff_allSteps (fun _ hs => hs.connects)
      (fun _ _ _ hs hC h => connecting_step hs hconfig hC h)
      (fun _ _ _ _ hC h => not_connectsToAll_step hC h)
      ⟨hasConfigured_init, ⟨rfl, by simp, by simp⟩⟩
  constructor
  · intro ⟨hconfig, hstates, _⟩
    exact ⟨hconfig, (hruns hconfig).mp hstates⟩
  · intro ⟨hconfig, hsteps⟩
    refine ⟨hconfig, (hruns hconfig).mpr hsteps, ?_⟩
    intro s hrun
    rw [connected_length hrun]
    exact Nat.zero_add _

/-- One number that is too large takes the other address with it, and the ticks. -/
theorem not_addresses : ¬ (TxConfig.txManagerAddresses
      { tms := some ["10.0.0.1:8070", "10.0.0.1:99999"] } = .ok [("10.0.0.1", 8070)]
    ∧ ∀ es, AllStates (TmServerRunner.step { tms := some ["10.0.0.1:8070", "10.0.0.1:99999"] })
      (ConnectsToAll [("10.0.0.1", 8070)]) {} es) := by
  intro ⟨_, hruns⟩
  have hlast := (hruns [.tick]).last rfl
  exact List.not_mem_nil (hlast.connected [] List.mem_cons_self _ List.mem_cons_self)

end TxLcn.Proof
