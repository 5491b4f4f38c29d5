import LibAmqp.Stream.Socket

/-!
# The attempts of a socket to connect

By induction over what is left of the list: `Going` is a socket between two attempts, all addresses
before having failed, `Waiting` one with a connection in progress. A socket that waits reads a freed
watcher at the next event, so the attempts are sure to be made only if none is left in progress.
-/

namespace Amqp.Stream

open Lib

variable {α : Type}

/-! ## Traces -/

section Traces

variable {t : List (SocketMark α)} {fd : Nat} {address : α}

@[simp] theorem openDescriptors_tried :
    openDescriptors (t ++ [.tried address]) = openDescriptors t := by simp [openDescriptors]

@[simp] theorem openDescriptors_opened :
    openDescriptors (t ++ [.opened fd]) = openDescriptors t ++ [fd] := by simp [openDescriptors]

@[simp] theorem openDescriptors_closed :
    openDescriptors (t ++ [.closed fd]) = (openDescriptors t).erase fd := by simp [openDescriptors]

@[simp] theorem openDescriptors_freed : openDescriptors (t ++ [.freed]) = openDescriptors t := by
  simp [openDescriptors]

theorem triedAddresses_append {m : SocketMark α} (hm : m.address? = none) :
    triedAddresses (t ++ [m]) = triedAddresses t := by simp [triedAddresses, hm]

@[simp] theorem triedAddresses_tried :
    triedAddresses (t ++ [.tried address]) = triedAddresses t ++ [address] := by
  simp [triedAddresses, SocketMark.address?]

theorem notices_append {m : SocketMark α} (hm : m.notice? = none) : notices (t ++ [m]) = notices t := by
  simp [notices, hm]

/-- The list was not freed. -/
theorem countP_isFreed (h : .freed ∉ t) : t.countP SocketMark.isFreed = 0 := by
  rw [List.countP_eq_zero]
  intro m hm hfreed
  cases m <;> first | exact h hm | cases hfreed

theorem countP_isFreed_append {m : SocketMark α} (hm : m.isFreed = false) :
    (t ++ [m]).countP SocketMark.isFreed = t.countP SocketMark.isFreed := by
  rw [List.countP_append, List.countP_singleton, if_neg (by simp [hm]), Nat.add_zero]

theorem countP_isFreed_freed (h : .freed ∉ t) :
    (t ++ [SocketMark.freed]).countP SocketMark.isFreed = 1 := by
  rw [List.countP_append, countP_isFreed h]
  rfl

theorem notices_told {m : SocketMark α} {b : Bool} (hm : m.notice? = some b) (ht : notices t = []) :
    notices (t ++ [m]) = [b] := by
  rw [notices, List.filterMap_append]
  rw [notices] at ht
  rw [ht]
  simp [hm]

end Traces

namespace Socket

variable {addresses before rest : List (Target α)} {target : Target α} {s : Socket α}

/-! ## The states on the way -/

/-- The addresses before have failed, and what is left of the list is the rest. -/
structure Left (addresses before rest : List (Target α)) : Prop where
  split : addresses = before ++ rest
  failed : ∀ target ∈ before, target.result.succeeds = false

/-- Between two attempts. -/
structure Going (addresses before rest : List (Target α)) (s : Socket α) : Prop where
  left : Left addresses before rest
  name : s.name = .connecting
  fd : s.fd = none
  addrinfo : s.addrinfo = some addresses
  iterator : s.iterator = rest
  watcher : s.watcher = none
  orderly : Justified SocketPermits s.marks
  descriptors : openDescriptors s.marks = []
  tried : triedAddresses s.marks = before.map (·.address)
  freed : .freed ∉ s.marks
  notices : notices s.marks = []

/-- An attempt is under way. -/
structure Trying (addresses before rest : List (Target α)) (target : Target α) (s : Socket α) :
    Prop where
  left : Left addresses before (target :: rest)
  name : s.name = .connecting
  addrinfo : s.addrinfo = some addresses
  iterator : s.iterator = rest
  orderly : Justified SocketPermits s.marks
  descriptors : openDescriptors s.marks = s.fd.toList
  tried : triedAddresses s.marks = (before ++ [target]).map (·.address)
  freed : .freed ∉ s.marks
  notices : notices s.marks = []

/-- A connection is in progress. -/
structure Waiting (addresses before rest : List (Target α)) (target : Target α) (s : Socket α) : Prop
    extends Trying addresses before rest target s where
  descriptor : s.fd.isSome
  watcher : s.watcher = s.fd
  inProgress : target.result.isInProgress = true
  pending : s.pending = target.result.succeeds

/-- Done with the addresses, or with a connection in progress and less left than before. -/
def Goes (addresses : List (Target α)) (n : Nat) (s : Socket α) : Prop :=
  s.watcher = none ∧ s.Attempts addresses ∨
    ∃ before rest target, Waiting addresses before rest target s ∧ rest.length < n

theorem Goes.le {m n : Nat} (h : Goes addresses m s) (hle : m ≤ n) : Goes addresses n s :=
  h.imp id fun ⟨before, rest, target, hs, hlt⟩ => ⟨before, rest, target, hs, by omega⟩

theorem Left.attempted_success (h : Left addresses before (target :: rest))
    (hsucceeds : target.result.succeeds = true) :
    (attempted addresses).map (·.address) = (before ++ [target]).map (·.address) := by
  have hindex : addresses.findIdx (·.result.succeeds) = before.length := by
    rw [h.split, List.findIdx_append, List.findIdx_eq_length.mpr (by simpa using h.failed)]
    simp [List.findIdx_cons, hsucceeds]
  rw [attempted, hindex, h.split]
  simp [List.take_append, List.take_of_length_le]

theorem Left.attempted_prefix (h : Left addresses before (target :: rest)) :
    (before ++ [target]).map (·.address) <+: (attempted addresses).map (·.address) := by
  have hindex : before.length ≤ addresses.findIdx (·.result.succeeds) := by
    rw [h.split, List.findIdx_append, List.findIdx_eq_length.mpr (by simpa using h.failed)]
    simp
  refine List.IsPrefix.map _ ?_
  have htake : before ++ [target] = addresses.take (before.length + 1) := by
    rw [h.split]
    simp [List.take_append, List.take_of_length_le]
  rw [htake]
  exact List.take_prefix_take_left (by omega)

/-- All addresses have failed. -/
theorem Left.attempted_failure (h : Left addresses before []) :
    (attempted addresses).map (·.address) = before.map (·.address) := by
  have hindex : addresses.findIdx (·.result.succeeds) = before.length := by
    rw [h.split, List.append_nil]
    exact List.findIdx_eq_length.mpr (by simpa using h.failed)
  rw [attempted, hindex, h.split]
  simp [List.take_of_length_le]

theorem Left.any_success (h : Left addresses before (target :: rest))
    (hsucceeds : target.result.succeeds = true) : addresses.any (·.result.succeeds) = true := by
  rw [h.split]
  simp [hsucceeds]

theorem Left.any_failure (h : Left addresses before []) :
    addresses.any (·.result.succeeds) = false := by
  rw [h.split]
  simpa using h.failed

theorem Left.next (h : Left addresses before (target :: rest))
    (hfails : target.result.succeeds = false) : Left addresses (before ++ [target]) rest where
  split := by rw [h.split]; simp
  failed := by
    intro t ht
    rcases List.mem_append.mp ht with ht | ht
    · exact h.failed t ht
    · rw [List.mem_singleton.mp ht]
      exact hfails

/-! ## What the functions do -/

theorem Going.try (h : Going addresses before (target :: rest) s) :
    Trying addresses before rest target
      (({ s with iterator := rest } : Socket α).mark (.tried target.address)) where
  left := h.left
  name := h.name
  addrinfo := h.addrinfo
  iterator := rfl
  orderly := h.orderly.append ⟨h.descriptors, h.freed⟩
  descriptors := by simp [mark, h.descriptors, h.fd]
  tried := by simp [mark, h.tried]
  freed := by simp [mark, h.freed]
  notices := (notices_append rfl).trans h.notices

theorem Trying.open (h : Trying addresses before rest target s) (hfd : s.fd = none) (fd : Nat) :
    Trying addresses before rest target (({ s with fd := some fd } : Socket α).mark (.opened fd)) where
  left := h.left
  name := h.name
  addrinfo := h.addrinfo
  iterator := h.iterator
  orderly := h.orderly.append ⟨by rw [h.descriptors, hfd]; rfl, h.freed⟩
  descriptors := by simp [mark, h.descriptors, hfd]
  tried := (triedAddresses_append rfl).trans h.tried
  freed := by simp [mark, h.freed]
  notices := (notices_append rfl).trans h.notices

theorem freeAddressInfo_some (h : s.addrinfo = some addresses) :
    s.freeAddressInfo = ({ s with addrinfo := none, iterator := [] } : Socket α).mark .freed := by
  unfold freeAddressInfo
  rw [h]

theorem closeConnectionSocket_some {fd : Nat} (h : s.fd = some fd) :
    s.closeConnectionSocket = ({ s with fd := none } : Socket α).mark (.closed fd) := by
  unfold closeConnectionSocket
  rw [h]

theorem closeConnectionSocket_none (h : s.fd = none) : s.closeConnectionSocket = s := by
  unfold closeConnectionSocket
  rw [h]

theorem cleanupEverything_none (hfd : s.fd = none) (ha : s.addrinfo = none) :
    s.cleanupEverything = s.cleanupConnectWatcher := by
  unfold cleanupEverything freeAddressInfo
  rw [closeConnectionSocket_none (by exact hfd)]
  simp only [cleanupConnectWatcher, ha]

/-- The descriptor of an attempt that failed is closed. -/
theorem Trying.close (h : Trying addresses before rest target s) :
    Trying addresses before rest target s.closeConnectionSocket ∧ s.closeConnectionSocket.fd = none ∧
      s.closeConnectionSocket.watcher = s.watcher := by
  cases hfd : s.fd with
  | none =>
    rw [closeConnectionSocket_none hfd]
    exact ⟨h, hfd, rfl⟩
  | some fd =>
    have hopen : openDescriptors s.marks = [fd] := by rw [h.descriptors, hfd]; rfl
    rw [closeConnectionSocket_some hfd]
    refine ⟨?_, rfl, rfl⟩
    exact
      { left := h.left
        name := h.name
        addrinfo := h.addrinfo
        iterator := h.iterator
        orderly := h.orderly.append hopen
        descriptors := by simp [mark, hopen]
        tried := (triedAddresses_append rfl).trans h.tried
        freed := by simp [mark, h.freed]
        notices := (notices_append rfl).trans h.notices }

/-- The connection is told that the attempt succeeded. -/
theorem Trying.done_ends (h : Trying addresses before rest target s) (hfd : s.fd.isSome)
    (hwatcher : s.watcher = none) (hsucceeds : target.result.succeeds = true) (n : Nat) :
    Ends (Goes addresses n) (fun _ => False) s.done := by
  obtain ⟨fd, hfd⟩ := Option.isSome_iff_exists.mp hfd
  have hopen : openDescriptors s.marks = [fd] := by rw [h.descriptors, hfd]; rfl
  have htried : triedAddresses (s.marks ++ [.freed] ++ [.done]) =
      (attempted addresses).map (·.address) := by
    rw [triedAddresses_append rfl, triedAddresses_append rfl, h.tried, h.left.attempted_success hsucceeds]
  have hpermits : SocketPermits s.marks .freed := h.freed
  unfold done
  rw [h.name, freeAddressInfo_some h.addrinfo]
  refine .inl ⟨hwatcher, (h.orderly.append hpermits).append ⟨fd, by simp [hopen]⟩, ?_, fun hw => ?_,
    fun _ => ⟨htried, ?_, ?_⟩⟩
  · exact htried ▸ List.prefix_rfl
  · have hsome : s.watcher.isSome := hw
    simp [hwatcher] at hsome
  · exact (countP_isFreed_append rfl).trans (countP_isFreed_freed h.freed)
  · rw [h.left.any_success hsucceeds]
    exact notices_told rfl ((notices_append rfl).trans h.notices)

/-- The connection is told that there is no address left. -/
theorem Trying.fail_ends (h : Trying addresses before [] target s) (hfd : s.fd = none)
    (hfails : target.result.succeeds = false) (n : Nat) :
    Ends (Goes addresses n) (fun _ => False) s.freeAddressInfo.fail := by
  have hopen : openDescriptors s.marks = [] := by rw [h.descriptors, hfd]; rfl
  have hleft := h.left.next hfails
  have htried : triedAddresses (s.marks ++ [.freed] ++ [.failed]) =
      (attempted addresses).map (·.address) := by
    rw [triedAddresses_append rfl, triedAddresses_append rfl, h.tried, hleft.attempted_failure]
  have hpermits : SocketPermits s.marks .freed := h.freed
  rw [freeAddressInfo_some h.addrinfo]
  unfold fail
  simp only [mark, h.name, stopAndNotifyConnectionFailed]
  rw [cleanupEverything_none (by exact hfd) rfl]
  refine .inl ⟨rfl, (h.orderly.append hpermits).append (by simp [SocketPermits, hopen]), ?_,
    fun hw => absurd hw (by simp [cleanupConnectWatcher]), fun _ => ⟨htried, ?_, ?_⟩⟩
  · exact htried ▸ List.prefix_rfl
  · exact (countP_isFreed_append rfl).trans (countP_isFreed_freed h.freed)
  · rw [hleft.any_failure]
    exact notices_told rfl ((notices_append rfl).trans h.notices)

/-- An attempt failed: on to the next address, or the connection is told. -/
theorem Trying.failed_ends {attempt : Socket α → SocketOutcome α}
    (h : Trying addresses before rest target s) (hwatcher : s.watcher = none)
    (hfails : target.result.succeeds = false)
    (hattempt : rest ≠ [] → ∀ s, Going addresses (before ++ [target]) rest s →
      Ends (Goes addresses rest.length) (fun _ => False) (attempt s)) :
    Ends (Goes addresses rest.length) (fun _ => False) (s.connectionAttemptFailed attempt) := by
  obtain ⟨h, hfd, hw⟩ := h.close
  unfold connectionAttemptFailed
  dsimp only
  rw [h.iterator]
  cases rest with
  | nil => exact h.fail_ends hfd hfails _
  | cons next rest =>
    rw [if_neg (by simp)]
    unfold tryConnect
    rw [h.name]
    exact hattempt (by simp) _
      { left := h.left.next hfails
        name := h.name
        fd := hfd
        addrinfo := h.addrinfo
        iterator := h.iterator
        watcher := hw.trans hwatcher
        orderly := h.orderly
        descriptors := by rw [h.descriptors, hfd]; rfl
        tried := h.tried
        freed := h.freed
        notices := h.notices }

/-- The rest of the list, by induction over it. -/
theorem Going.attempt_ends : ∀ {rest before : List (Target α)} {s : Socket α}, rest ≠ [] →
    Going addresses before rest s →
    Ends (Goes addresses rest.length) (fun _ => False) (attemptConnectionToNextAddress rest s) := by
  intro rest
  induction rest with
  | nil => exact fun hne => absurd rfl hne
  | cons target next ih =>
    intro before s _ h
    have htry := h.try
    have hnext : ∀ {s : Socket α}, Trying addresses before next target s → s.watcher = none →
        target.result.succeeds = false →
        Ends (Goes addresses (next.length + 1)) (fun _ => False)
          (s.connectionAttemptFailed (attemptConnectionToNextAddress next)) :=
      fun hs hw hfails => (hs.failed_ends hw hfails fun hne s hs => ih hne hs).mono
        (fun _ h => h.le (Nat.le_succ _)) fun _ he => he
    unfold attemptConnectionToNextAddress
    cases hresult : target.result with
    | noSocket => exact hnext htry h.watcher (by rw [hresult]; rfl)
    | connected fd => exact (htry.open h.fd fd).done_ends rfl h.watcher (by rw [hresult]; rfl) _
    | refused fd => exact hnext (htry.open h.fd fd) h.watcher (by rw [hresult]; rfl)
    | inProgress fd succeeds =>
      refine .inr ⟨before, next, target, ⟨?_, rfl, rfl, by rw [hresult]; rfl, by rw [hresult]; rfl⟩, by simp⟩
      have hopen := htry.open h.fd fd
      exact { hopen with }

theorem getError_pending {fd : Nat} (h : s.fd = some fd) : s.getError fd = !s.pending := by
  rw [getError, h]
  simp

/-- The connection in progress is there, or is not. -/
theorem Waiting.event_ends (h : Waiting addresses before rest target s) :
    Ends (Goes addresses rest.length) (fun _ => False) (s.connectEvent true) := by
  have htrying : Trying addresses before rest target s.cleanupConnectWatcher := { h.toTrying with }
  obtain ⟨fd, hfd⟩ := Option.isSome_iff_exists.mp h.descriptor
  have herror : s.cleanupConnectWatcher.getError fd = !s.pending := getError_pending hfd
  unfold connectEvent
  rw [h.watcher, hfd]
  change Ends _ _ (if s.cleanupConnectWatcher.getError fd then
    s.cleanupConnectWatcher.connectionAttemptFailed attempt else s.cleanupConnectWatcher.done)
  rw [herror]
  split
  · next hp =>
    have hfails : target.result.succeeds = false := h.pending ▸ (Bool.not_eq_true' _).mp hp
    refine htrying.failed_ends rfl hfails fun hne s hs => ?_
    unfold attempt
    rw [hs.iterator]
    exact hs.attempt_ends hne
  · next hp =>
    have hsucceeds : target.result.succeeds = true := by
      rw [← h.pending]
      simpa using hp
    exact htrying.done_ends h.descriptor rfl hsucceeds _

theorem Waiting.isSome (h : Waiting addresses before rest target s) : s.watcher.isSome := by
  rw [h.watcher]
  exact h.descriptor

theorem Waiting.attempts (h : Waiting addresses before rest target s) : s.Attempts addresses where
  orderly := h.orderly
  inOrder := h.tried ▸ h.left.attempted_prefix
  waiting := fun _ => ⟨h.freed, h.notices⟩
  settled := fun hw => absurd (hw ▸ h.isSome) (by simp)

/-- An event that nothing waits for. -/
theorem connectEvent_none (keeps : Bool) (h : s.watcher = none) : s.connectEvent keeps = .ok s := by
  unfold connectEvent
  rw [h]

theorem Goes.event_ends {n : Nat} (h : Goes addresses n s) :
    Ends (Goes addresses (n - 1)) (fun _ => False) (s.connectEvent true) := by
  rcases h with h | ⟨before, rest, target, h, hlt⟩
  · rw [connectEvent_none true h.1]
    exact .inl h
  · exact h.event_ends.mono (fun _ hs => hs.le (by omega)) fun _ he => he

theorem Goes.run_ends : ∀ {events n : Nat} {s : Socket α}, Goes addresses n s →
    Ends (Goes addresses (n - events)) (fun _ => False)
      (run (step true) s (List.replicate events .event)) := by
  intro events
  induction events with
  | zero => exact fun h => h
  | succ events ih =>
    intro n s h
    rw [List.replicate_succ, run]
    refine h.event_ends.bind fun s' hs => ?_
    exact (ih hs).mono (fun _ h => h.le (by omega)) fun _ he => he

theorem connect_ends (hne : addresses ≠ []) :
    Ends (Goes addresses addresses.length) (fun _ => False) (create.connect (some addresses)) := by
  refine Going.attempt_ends hne (?_ : Going addresses [] addresses _)
  exact
    { left := ⟨rfl, by simp⟩
      name := rfl
      fd := rfl
      addrinfo := rfl
      iterator := rfl
      watcher := rfl
      orderly := .nil
      descriptors := rfl
      tried := rfl
      freed := by simp [create]
      notices := rfl }

/-! ## Freed memory that is not kept -/

theorem run_none (keeps : Bool) (h : s.watcher = none) (events : Nat) :
    run (step keeps) s (List.replicate events .event) = .ok s := by
  induction events with
  | zero => rfl
  | succ events ih =>
    rw [List.replicate_succ, run]
    have hevent : step keeps s .event = .ok s := connectEvent_none keeps h
    rw [hevent]
    exact ih

/-- The watcher that is read has been freed. -/
theorem connectEvent_freed (h : s.watcher.isSome) : s.connectEvent false = .error .wildPointer := by
  obtain ⟨io, hio⟩ := Option.isSome_iff_exists.mp h
  unfold connectEvent
  rw [hio]
  rfl

/-- The first address that is left in progress is waited for. -/
theorem attempt_waits : ∀ {rest : List (Target α)} {s : Socket α}, s.name = .connecting →
    (∃ target ∈ attempted rest, target.result.isInProgress = true) →
    Ends (fun s => s.watcher.isSome) (fun _ => False) (attemptConnectionToNextAddress rest s) := by
  intro rest
  induction rest with
  | nil =>
    rintro s - ⟨target, htarget, -⟩
    simp [attempted] at htarget
  | cons target next ih =>
    rintro s hname ⟨waits, hwaits, hprogress⟩
    have hnext : target.result.succeeds = false → target.result.isInProgress = false →
        ∃ target ∈ attempted next, target.result.isInProgress = true := by
      intro hfails hprompt
      rw [attempted, List.findIdx_cons, hfails] at hwaits
      rcases List.mem_cons.mp hwaits with rfl | hwaits
      · exact absurd (hprogress.symm.trans hprompt) (by simp)
      · exact ⟨waits, hwaits, hprogress⟩
    have hfailed : ∀ {s : Socket α}, s.name = .connecting → s.iterator = next →
        target.result.succeeds = false → target.result.isInProgress = false →
        Ends (fun s => s.watcher.isSome) (fun _ => False)
          (s.connectionAttemptFailed (attemptConnectionToNextAddress next)) := by
      intro s hname hiterator hfails hprompt
      have hclose : s.closeConnectionSocket.name = .connecting ∧ s.closeConnectionSocket.iterator = next := by
        unfold closeConnectionSocket
        split
        · exact ⟨hname, hiterator⟩
        · exact ⟨hname, hiterator⟩
      have hrest := hnext hfails hprompt
      have hne : next.isEmpty = false := by
        obtain ⟨target, htarget, -⟩ := hrest
        cases next with
        | nil => simp [attempted] at htarget
        | cons _ _ => rfl
      unfold connectionAttemptFailed
      dsimp only
      rw [hclose.2, hne, if_neg (by simp)]
      unfold tryConnect
      rw [hclose.1]
      exact ih hclose.1 hrest
    unfold attemptConnectionToNextAddress
    cases hresult : target.result with
    | noSocket => exact hfailed hname rfl (by rw [hresult]; rfl) (by rw [hresult]; rfl)
    | connected fd =>
      rw [attempted, List.findIdx_cons, hresult] at hwaits
      simp only [AddressResult.succeeds, cond_true, Nat.zero_add, List.take_succ_cons, List.take_zero,
        List.mem_singleton] at hwaits
      rw [hwaits, hresult] at hprogress
      cases hprogress
    | refused fd => exact hfailed hname rfl (by rw [hresult]; rfl) (by rw [hresult]; rfl)
    | inProgress fd succeeds => exact rfl

/-- The address that is waited for is one of those that are tried. -/
theorem Left.mem_attempted (h : Left addresses before (target :: rest)) : target ∈ attempted addresses := by
  have hindex : before.length ≤ addresses.findIdx (·.result.succeeds) := by
    rw [h.split, List.findIdx_append, List.findIdx_eq_length.mpr (by simpa using h.failed)]
    simp
  have htake : before ++ [target] = addresses.take (before.length + 1) := by
    rw [h.split]
    simp [List.take_append, List.take_of_length_le]
  have hmem : target ∈ addresses.take (before.length + 1) := by
    rw [← htake]
    simp
  exact (List.take_prefix_take_left (by omega)).subset hmem

end Socket

/-- Where freed memory keeps its contents, all attempts are made. -/
theorem connects_kept (addresses : List (Target α)) (hne : addresses ≠ []) : Connects true addresses := by
  intro events
  rw [run]
  refine (Socket.connect_ends hne).bind fun s hs => ?_
  refine hs.run_ends.mono (fun s' h => ?_) fun _ he => he
  rcases h with ⟨hw, h⟩ | ⟨before, rest, target, h, hlt⟩
  · exact ⟨h, fun _ => hw⟩
  · exact ⟨h.attempts, fun hle => by omega⟩

/-- **Connection attempts**: the socket tries the addresses in order up to the first that succeeds, closes
the descriptor of one that failed before it tries the next, frees the list once, and tells the connection
once, exactly when no attempt is left in progress. -/
theorem connection_attempts_iff (addresses : List (Target α)) (hne : addresses ≠ []) :
    Connects false addresses ↔ ∀ target ∈ attempted addresses, target.result.isInProgress = false := by
  constructor
  · intro hconnects target htarget
    by_contra hprogress
    have hwaits : Ends (fun s => s.watcher.isSome) (fun _ => False)
        (Socket.create.connect (some addresses)) :=
      Socket.attempt_waits (s := { Socket.create with
        name := .connecting, addrinfo := some addresses, iterator := addresses }) rfl
        ⟨target, htarget, (Bool.not_eq_false _).mp hprogress⟩
    have hend := hconnects 1
    rw [run] at hend
    change Ends _ _ (Socket.create.connect (some addresses) >>= fun s => run (Socket.step false) s [.event])
      at hend
    cases hconnect : (Socket.create : Socket α).connect (some addresses) with
    | error e =>
      rw [hconnect] at hwaits
      exact hwaits
    | ok s =>
      rw [hconnect] at hend hwaits
      change Ends _ _ (run (Socket.step false) s [.event]) at hend
      rw [run_singleton] at hend
      change Ends _ _ (s.connectEvent false) at hend
      rw [Socket.connectEvent_freed hwaits] at hend
      exact hend
  · intro hprompt events
    rw [run]
    refine (Socket.connect_ends hne).bind fun s hs => ?_
    rcases hs with ⟨hw, h⟩ | ⟨before, rest, target, h, -⟩
    · rw [Socket.run_none false hw]
      exact ⟨h, fun _ => hw⟩
    · have hp := hprompt target h.left.mem_attempted
      exact absurd (h.inProgress.symm.trans hp) (by simp)

/-- No socket for the first address, the second refuses, and the third is there at once; what would be in
progress is not tried. -/
def fourAddresses : List (Target Nat) :=
  [⟨1, .noSocket⟩, ⟨2, .refused 7⟩, ⟨3, .connected 7⟩, ⟨4, .inProgress 8 true⟩]

theorem connection_attempts_iff_four :
    Connects false fourAddresses ∧
      (Connects false fourAddresses ↔
        ∀ target ∈ attempted fourAddresses, target.result.isInProgress = false) := by
  have hiff := connection_attempts_iff fourAddresses (by simp [fourAddresses])
  exact ⟨hiff.2 (by decide), hiff⟩

/-- The one address is in progress: when the connection is there, its descriptor is read from the watcher
that was freed. -/
theorem connect_event_reads_freed_watcher :
    run (Socket.step false) Socket.create [.connect (some [⟨1, .inProgress 7 true⟩]), .event] =
      (.error .wildPointer : SocketOutcome Nat) := rfl

end Amqp.Stream
