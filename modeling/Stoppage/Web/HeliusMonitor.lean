import Stoppage.Lib.Transition

/-! # `apps/web/lib/helius/monitor.ts`: one socket to the node

The monitor opens sockets, is called back by them and by its timers, and is connected and
disconnected by the page, all in any order: a callback of an old socket may come after a new one was
opened. `Monitor` has every socket, interval and timeout that it ever started, and the fields that
hold the current ones. Left out are the messages of a socket and the log.
-/

namespace Stoppage.Helius
open TransitionSystem
set_option autoImplicit false

/-- `readyState` of a socket. -/
inductive ReadyState
  | connecting
  | opened
  | closing
  | closed
deriving DecidableEq

/-- `CONNECTING` or `OPEN`. -/
def ReadyState.live : ReadyState → Bool
  | .connecting => true
  | .opened => true
  | .closing => false
  | .closed => false

/-- What `ws.close()` leaves. -/
def ReadyState.close (r : ReadyState) : ReadyState := if r.live then .closing else r

structure Timeout where
  id : ℕ
  delay : ℕ
deriving DecidableEq

structure Monitor where
  /-- The sockets so far, by number. -/
  sockets : List ReadyState
  /-- The intervals that run. -/
  intervals : List ℕ
  /-- The timeouts that wait. -/
  timeouts : List Timeout
  nextId : ℕ
  ws : Option ℕ
  reconnectAttempts : ℕ
  pingInterval : Option ℕ
  reconnectTimeout : Option ℕ
  closedByUser : Bool

def maxReconnectAttempts : ℕ := 5

def Monitor.new : Monitor where
  sockets := []
  intervals := []
  timeouts := []
  nextId := 0
  ws := none
  reconnectAttempts := 0
  pingInterval := none
  reconnectTimeout := none
  closedByUser := false

namespace Monitor

/-- `this.ws.readyState` -/
def current (m : Monitor) : Option ReadyState := m.ws.bind fun i => m.sockets[i]?

/-- `connect()`. `configured` says that the URL of the configuration is one. -/
def connect (configured : Bool) (m : Monitor) : Except String Monitor :=
  if (m.current.map ReadyState.live).getD false then .ok m
  else if configured then
    .ok { m with
      closedByUser := false
      ws := some m.sockets.length
      sockets := m.sockets ++ [.connecting] }
  else .error "Helius RPC URL not configured"

/-- A call of `connect()` by someone who is left with the state that it leaves. -/
def connected (configured : Bool) (m : Monitor) : Monitor :=
  (m.connect configured).toOption.getD m

def startPing (m : Monitor) : Monitor :=
  match m.pingInterval with
  | some _ => m
  | none =>
    { m with
      pingInterval := some m.nextId
      intervals := m.nextId :: m.intervals
      nextId := m.nextId + 1 }

def stopPing (m : Monitor) : Monitor :=
  match m.pingInterval with
  | some p => { m with pingInterval := none, intervals := m.intervals.erase p }
  | none => m

def onopen (m : Monitor) : Monitor := { m with reconnectAttempts := 0 }.startPing

def handleReconnect (m : Monitor) : Monitor :=
  if m.reconnectAttempts < maxReconnectAttempts then
    { m with
      reconnectAttempts := m.reconnectAttempts + 1
      timeouts := ⟨m.nextId, 2 ^ (m.reconnectAttempts + 1) * 1000⟩ :: m.timeouts
      reconnectTimeout := some m.nextId
      nextId := m.nextId + 1 }
  else m

def onclose (m : Monitor) : Monitor :=
  if m.stopPing.closedByUser then m.stopPing else m.stopPing.handleReconnect

/-- The callback of a timeout. -/
def onTimeout (configured : Bool) (t : Timeout) (m : Monitor) : Monitor :=
  let m := { m with timeouts := m.timeouts.erase t, reconnectTimeout := none }
  if m.closedByUser then m else m.connected configured

/-- `ws.close(); ws = null` -/
def dropSocket (m : Monitor) : Monitor :=
  match m.ws with
  | some i => { m with sockets := m.sockets.modify i ReadyState.close, ws := none }
  | none => m

def clearReconnect (m : Monitor) : Monitor :=
  match m.reconnectTimeout with
  | some id =>
    { m with
      timeouts := m.timeouts.filter fun t => t.id ≠ id
      reconnectTimeout := none }
  | none => m

def disconnect (m : Monitor) : Monitor :=
  { m with closedByUser := true }.dropSocket.stopPing.clearReconnect

end Monitor

/-! ## Events -/

/-- What the page calls, what the sockets do, and a timeout that is due. -/
inductive Event
  | connect
  | disconnect
  | opened (i : ℕ)
  | closing (i : ℕ)
  | closed (i : ℕ)
  | due (t : Timeout)
deriving DecidableEq

section Run
variable (configured : Bool)

/-- A socket opens only while it connects, and closes once. -/
def Event.apply (m : Monitor) : Event → Option Monitor
  | .connect => some (m.connected configured)
  | .disconnect => some m.disconnect
  | .opened i =>
    if m.sockets[i]? = some .connecting then
      some { m with sockets := m.sockets.set i .opened }.onopen
    else none
  | .closing i =>
    if (m.sockets[i]?.map ReadyState.live).getD false then
      some { m with sockets := m.sockets.set i .closing }
    else none
  | .closed i =>
    if m.sockets[i]? ≠ none ∧ m.sockets[i]? ≠ some .closed then
      some { m with sockets := m.sockets.set i .closed }.onclose
    else none
  | .due t => if t ∈ m.timeouts then some (m.onTimeout configured t) else none

def Step (m : Monitor) (e : Event) (m' : Monitor) : Prop := e.apply configured m = some m'

end Run

/-! ## One socket and one interval -/

/-- The only socket that is not on its way out is the current one, and the only interval that runs is
the one in the field. -/
structure Sound (m : Monitor) : Prop where
  live : ∀ i r, m.sockets[i]? = some r → r.live = true → m.ws = some i
  ping : m.intervals = m.pingInterval.toList
  attempts : m.reconnectAttempts ≤ maxReconnectAttempts

namespace Sound
variable {m : Monitor}

theorem new : Sound Monitor.new where
  live _ _ h := by cases h
  ping := rfl
  attempts := Nat.zero_le _

/-- A socket changes its state, and comes to life in no other way than by opening. -/
theorem set (h : Sound m) {i : ℕ} {r : ReadyState}
    (hr : r.live = true → ∃ r', m.sockets[i]? = some r' ∧ r'.live = true) :
    Sound { m with sockets := m.sockets.set i r } where
  live j r' hj hlive := by
    have hset : (m.sockets.set i r)[j]? = some r' := hj
    rw [List.getElem?_set] at hset
    split at hset
    · rename_i hij
      subst hij
      split at hset
      · cases hset
        obtain ⟨r'', hi, hi'⟩ := hr hlive
        exact h.live i r'' hi hi'
      · cases hset
    · exact h.live j r' hset hlive
  ping := h.ping
  attempts := h.attempts

theorem startPing (h : Sound m) : Sound m.startPing := by
  unfold Monitor.startPing
  split
  · exact h
  · rename_i hnone
    have hempty : m.intervals = [] := by rw [h.ping, hnone, Option.toList_none]
    exact ⟨h.live, congrArg (m.nextId :: ·) hempty, h.attempts⟩

theorem stopPing (h : Sound m) : Sound m.stopPing := by
  unfold Monitor.stopPing
  split
  · rename_i p hp
    have hone : m.intervals = [p] := by rw [h.ping, hp, Option.toList_some]
    have hempty : m.intervals.erase p = [] := by rw [hone, List.erase_cons_head]
    exact ⟨h.live, hempty, h.attempts⟩
  · exact h

theorem onopen (h : Sound m) : Sound m.onopen :=
  startPing ⟨h.live, h.ping, Nat.zero_le _⟩

theorem handleReconnect (h : Sound m) : Sound m.handleReconnect := by
  unfold Monitor.handleReconnect
  split
  · rename_i hlt
    exact ⟨h.live, h.ping, hlt⟩
  · exact h

theorem onclose (h : Sound m) : Sound m.onclose := by
  unfold Monitor.onclose
  split
  · exact h.stopPing
  · exact h.stopPing.handleReconnect

theorem connected {configured : Bool} (h : Sound m) : Sound (m.connected configured) := by
  unfold Monitor.connected Monitor.connect
  split
  · exact h
  split
  · rename_i hdead _
    refine ⟨fun j r hj hlive => ?_, h.ping, h.attempts⟩
    have happend : (m.sockets ++ [.connecting])[j]? = some r := hj
    rw [List.getElem?_append] at happend
    split at happend
    · -- a socket that is still alive would have kept `connect` from opening another
      have hcurrent : m.current = some r := by
        rw [Monitor.current, h.live j r happend hlive]
        exact happend
      rw [hcurrent, Option.map_some, Option.getD_some] at hdead
      exact absurd hlive hdead
    · rename_i hge
      have hlast : j - m.sockets.length < 1 := (List.getElem?_eq_some_iff.mp happend).1
      have hj' : m.sockets.length = j := by omega
      exact congrArg some hj'
  · exact h

theorem onTimeout {configured : Bool} (h : Sound m) (t : Timeout) :
    Sound (m.onTimeout configured t) := by
  have hm : Sound { m with timeouts := m.timeouts.erase t, reconnectTimeout := none } :=
    ⟨h.live, h.ping, h.attempts⟩
  unfold Monitor.onTimeout
  dsimp only
  split
  · exact hm
  · exact hm.connected

theorem dropSocket (h : Sound m) : Sound m.dropSocket := by
  unfold Monitor.dropSocket
  split
  · rename_i i hi
    refine ⟨fun j r hj hlive => ?_, h.ping, h.attempts⟩
    have hmodify : (m.sockets.modify i ReadyState.close)[j]? = some r := hj
    rw [List.getElem?_modify] at hmodify
    obtain ⟨r', hr', he⟩ := Option.map_eq_some_iff.mp hmodify
    split at he
    · subst he
      exact absurd hlive (by cases r' <;> decide)
    · rename_i hne
      subst he
      exact absurd (Option.some.inj (hi.symm.trans (h.live j r' hr' hlive))) hne
  · exact h

theorem clearReconnect (h : Sound m) : Sound m.clearReconnect := by
  unfold Monitor.clearReconnect
  split
  · exact ⟨h.live, h.ping, h.attempts⟩
  · exact h

theorem disconnect (h : Sound m) : Sound m.disconnect := by
  have hm : Sound { m with closedByUser := true } := ⟨h.live, h.ping, h.attempts⟩
  exact hm.dropSocket.stopPing.clearReconnect

end Sound

theorem Sound.step {configured : Bool} {m m' : Monitor} {e : Event} (h : Step configured m e m')
    (hm : Sound m) : Sound m' := by
  cases e with
  | connect =>
    cases h
    exact hm.connected
  | disconnect =>
    cases h
    exact hm.disconnect
  | opened i =>
    obtain ⟨hi, he⟩ := Option.ite_none_right_eq_some.mp h
    cases he
    exact (hm.set fun _ => ⟨.connecting, hi, rfl⟩).onopen
  | closing i =>
    obtain ⟨-, he⟩ := Option.ite_none_right_eq_some.mp h
    cases he
    exact hm.set fun hlive => by cases hlive
  | closed i =>
    obtain ⟨-, he⟩ := Option.ite_none_right_eq_some.mp h
    cases he
    exact (hm.set fun hlive => by cases hlive).onclose
  | due t =>
    obtain ⟨-, he⟩ := Option.ite_none_right_eq_some.mp h
    cases he
    exact hm.onTimeout t

/-! ## How many sockets there are -/

/-- A call of `connect()` opens at most one socket, and a socket that opens allows for the full number
of attempts once more. -/
def Event.allowance : Event → ℕ
  | .connect => 1
  | .opened _ => maxReconnectAttempts
  | _ => 0

def Event.isOpened : Event → Bool
  | .opened _ => true
  | _ => false

/-- The sockets so far and those that may still come: one for a timeout that waits, and one for each
attempt that is left. -/
def Monitor.claims (m : Monitor) : ℕ :=
  m.sockets.length + m.timeouts.length + (maxReconnectAttempts - m.reconnectAttempts)

namespace Monitor
variable (m : Monitor)

theorem claims_connected (configured : Bool) :
    (m.connected configured).claims ≤ m.claims + 1 := by
  unfold connected connect
  split
  · exact Nat.le_succ _
  split
  · show (m.sockets ++ [_]).length + m.timeouts.length +
      (maxReconnectAttempts - m.reconnectAttempts) ≤ m.claims + 1
    rw [List.length_append, List.length_singleton, claims]
    omega
  · exact Nat.le_succ _

theorem claims_startPing : m.startPing.claims = m.claims := by
  unfold startPing
  split <;> rfl

theorem claims_stopPing : m.stopPing.claims = m.claims := by
  unfold stopPing
  split <;> rfl

theorem claims_onopen : m.onopen.claims ≤ m.claims + maxReconnectAttempts := by
  rw [onopen, claims_startPing]
  show m.sockets.length + m.timeouts.length + (maxReconnectAttempts - 0) ≤ m.claims + _
  rw [claims]
  omega

theorem claims_handleReconnect : m.handleReconnect.claims = m.claims := by
  unfold handleReconnect
  split
  · rename_i hlt
    show m.sockets.length + (m.timeouts.length + 1) +
      (maxReconnectAttempts - (m.reconnectAttempts + 1)) = m.claims
    rw [claims]
    omega
  · rfl

theorem claims_onclose : m.onclose.claims = m.claims := by
  unfold onclose
  split
  · exact m.claims_stopPing
  · rw [claims_handleReconnect, claims_stopPing]

theorem claims_onTimeout (configured : Bool) {t : Timeout} (ht : t ∈ m.timeouts) :
    (m.onTimeout configured t).claims ≤ m.claims := by
  have hpos := List.length_pos_of_mem ht
  have herase : ({ m with timeouts := m.timeouts.erase t, reconnectTimeout := none } : Monitor).claims
      + 1 = m.claims := by
    show m.sockets.length + (m.timeouts.erase t).length +
      (maxReconnectAttempts - m.reconnectAttempts) + 1 = m.claims
    rw [List.length_erase_of_mem ht, claims]
    omega
  unfold onTimeout
  dsimp only
  split
  · omega
  · exact (claims_connected _ _).trans herase.le

theorem claims_dropSocket : m.dropSocket.claims = m.claims := by
  unfold dropSocket
  split
  · show (m.sockets.modify _ _).length + _ + _ = _
    rw [List.length_modify]
    rfl
  · rfl

theorem claims_clearReconnect : m.clearReconnect.claims ≤ m.claims := by
  unfold clearReconnect
  split
  · rename_i id _
    have hfilter := List.length_filter_le (fun t : Timeout => t.id ≠ id) m.timeouts
    exact Nat.add_le_add_right (Nat.add_le_add_left hfilter _) _
  · exact le_rfl

theorem claims_disconnect : m.disconnect.claims ≤ m.claims := by
  refine (claims_clearReconnect _).trans ?_
  rw [claims_stopPing, claims_dropSocket]
  rfl

end Monitor

theorem Monitor.claims_set (m : Monitor) (i : ℕ) (r : ReadyState) :
    ({ m with sockets := m.sockets.set i r } : Monitor).claims = m.claims := by
  show (m.sockets.set i r).length + _ + _ = _
  rw [List.length_set]
  rfl

theorem Step.claims_le {configured : Bool} {m m' : Monitor} {e : Event}
    (h : Step configured m e m') : m'.claims ≤ m.claims + e.allowance := by
  cases e with
  | connect =>
    cases h
    exact m.claims_connected configured
  | disconnect =>
    cases h
    exact m.claims_disconnect
  | opened i =>
    obtain ⟨-, he⟩ := Option.ite_none_right_eq_some.mp h
    cases he
    exact (Monitor.claims_onopen _).trans (Nat.add_le_add_right (m.claims_set i _).le _)
  | closing i =>
    obtain ⟨-, he⟩ := Option.ite_none_right_eq_some.mp h
    cases he
    exact (m.claims_set i _).le
  | closed i =>
    obtain ⟨-, he⟩ := Option.ite_none_right_eq_some.mp h
    cases he
    exact (Monitor.claims_onclose _).le.trans (m.claims_set i _).le
  | due t =>
    obtain ⟨ht, he⟩ := Option.ite_none_right_eq_some.mp h
    cases he
    exact m.claims_onTimeout configured ht

theorem sum_allowance (es : List Event) : (es.map Event.allowance).sum =
    es.count .connect + maxReconnectAttempts * es.countP Event.isOpened := by
  induction es with
  | nil => rfl
  | cons e es ih =>
    rw [List.map_cons, List.sum_cons, ih, List.count_cons, List.countP_cons]
    cases e <;> simp [Event.allowance, Event.isOpened] <;> ring

/-! ## Disconnected -/

/-- The user has disconnected, and there are `n` sockets. -/
structure Quiet (n : ℕ) (m : Monitor) : Prop where
  sound : Sound m
  byUser : m.closedByUser = true
  noSocket : m.ws = none
  noPing : m.pingInterval = none
  count : m.sockets.length = n

namespace Quiet
variable {n : ℕ} {m : Monitor}

theorem dead (h : Quiet n m) {i : ℕ} {r : ReadyState} (hi : m.sockets[i]? = some r) :
    r.live = false := by
  rw [← Bool.not_eq_true]
  intro hlive
  have hws := h.sound.live i r hi hlive
  rw [h.noSocket] at hws
  cases hws

theorem silent (h : Quiet n m) : m.intervals = [] := by
  rw [h.sound.ping, h.noPing, Option.toList_none]

theorem stopPing (h : Quiet n m) : m.stopPing = m := by
  unfold Monitor.stopPing
  rw [h.noPing]

/-- A socket on its way out moves on. -/
theorem set (h : Quiet n m) {i : ℕ} {r : ReadyState} (hr : r.live = false) :
    Quiet n { m with sockets := m.sockets.set i r } where
  sound := h.sound.set fun hlive => absurd hlive (Bool.not_eq_true _ ▸ hr)
  byUser := h.byUser
  noSocket := h.noSocket
  noPing := h.noPing
  count := List.length_set.trans h.count

end Quiet

theorem Monitor.stopPing_noPing (m : Monitor) : m.stopPing.pingInterval = none := by
  unfold stopPing
  split
  · rfl
  · assumption

theorem Monitor.stopPing_rest (m : Monitor) : m.stopPing.closedByUser = m.closedByUser ∧
    m.stopPing.ws = m.ws ∧ m.stopPing.sockets = m.sockets := by
  unfold stopPing
  split <;> exact ⟨rfl, rfl, rfl⟩

theorem Monitor.dropSocket_rest (m : Monitor) : m.dropSocket.closedByUser = m.closedByUser ∧
    m.dropSocket.ws = none ∧ m.dropSocket.sockets.length = m.sockets.length := by
  unfold dropSocket
  split
  · exact ⟨rfl, rfl, List.length_modify _ _ _⟩
  · rename_i hnone
    exact ⟨rfl, hnone, rfl⟩

theorem Monitor.clearReconnect_rest (m : Monitor) :
    m.clearReconnect.closedByUser = m.closedByUser ∧ m.clearReconnect.ws = m.ws ∧
      m.clearReconnect.sockets = m.sockets ∧ m.clearReconnect.pingInterval = m.pingInterval := by
  unfold clearReconnect
  split <;> exact ⟨rfl, rfl, rfl, rfl⟩

theorem Sound.quiet_disconnect {m : Monitor} (h : Sound m) :
    Quiet m.sockets.length m.disconnect := by
  obtain ⟨hc, hw, hs, hp⟩ :=
    Monitor.clearReconnect_rest { m with closedByUser := true }.dropSocket.stopPing
  obtain ⟨hc', hw', hs'⟩ := Monitor.stopPing_rest { m with closedByUser := true }.dropSocket
  obtain ⟨hc'', hw'', hs''⟩ := Monitor.dropSocket_rest { m with closedByUser := true }
  refine ⟨h.disconnect, ?_, ?_, ?_, ?_⟩
  · exact hc.trans (hc'.trans hc'')
  · exact hw.trans (hw'.trans hw'')
  · exact hp.trans (Monitor.stopPing_noPing _)
  · exact (congrArg List.length (hs.trans hs')).trans hs''

/-- Nothing but a call of `connect()` wakes the monitor. -/
theorem Quiet.step {configured : Bool} {n : ℕ} {m m' : Monitor} {e : Event}
    (he : e ≠ .connect) (h : Step configured m e m') (hm : Quiet n m) : Quiet n m' := by
  cases e with
  | connect => exact absurd rfl he
  | disconnect =>
    cases h
    have hquiet := hm.sound.quiet_disconnect
    rwa [hm.count] at hquiet
  | opened i =>
    obtain ⟨hi, -⟩ := Option.ite_none_right_eq_some.mp h
    cases hm.dead hi
  | closing i =>
    obtain ⟨-, he'⟩ := Option.ite_none_right_eq_some.mp h
    cases he'
    exact hm.set rfl
  | closed i =>
    obtain ⟨-, he'⟩ := Option.ite_none_right_eq_some.mp h
    cases he'
    have hset : Quiet n { m with sockets := m.sockets.set i .closed } := hm.set rfl
    rw [Monitor.onclose, hset.stopPing, if_pos hset.byUser]
    exact hset
  | due t =>
    obtain ⟨-, he'⟩ := Option.ite_none_right_eq_some.mp h
    cases he'
    have hrest : Quiet n { m with timeouts := m.timeouts.erase t, reconnectTimeout := none } :=
      ⟨⟨hm.sound.live, hm.sound.ping, hm.sound.attempts⟩, hm.byUser, hm.noSocket, hm.noPing,
        hm.count⟩
    unfold Monitor.onTimeout
    rw [if_pos hrest.byUser]
    exact hrest

/-! ## Runs -/

section Runs
variable {configured : Bool} {m m' : Monitor} {es : List Event}

theorem Sound.steps (h : Steps (Step configured) m es m') (hm : Sound m) : Sound m' :=
  h.invariant (fun _ _ _ _ => Sound.step) hm

theorem Quiet.steps {n : ℕ} (hes : .connect ∉ es) (h : Steps (Step configured) m es m')
    (hm : Quiet n m) : Quiet n m' := by
  refine h.invariant (fun _ e _ he => Quiet.step ?_) hm
  rintro rfl
  exact hes he

theorem sockets_le (h : Steps (Step configured) Monitor.new es m) :
    m.sockets.length ≤
      es.count .connect + maxReconnectAttempts * es.countP Event.isOpened +
        maxReconnectAttempts := by
  have hbudget := h.budget fun _ _ _ _ hstep => hstep.claims_le
  have hnew : Monitor.new.claims = maxReconnectAttempts := rfl
  have hlen : m.sockets.length ≤ m.claims := (Nat.le_add_right _ _).trans (Nat.le_add_right _ _)
  rw [sum_allowance, hnew] at hbudget
  omega

end Runs

/-- **One socket at a time, and none after a disconnect.** Whatever the page calls and in whatever
order the callbacks come, at most the socket in the field is connecting or open, at most one interval
pings, and the sockets are no more than the calls of `connect()`, five for each socket that opened,
and five. From a disconnect on until the next call of `connect()` no socket is opened, none is
connecting or open, and nothing pings. -/
theorem one_socket {configured : Bool} {es : List Event} {m : Monitor}
    (h : Steps (Step configured) Monitor.new es m) :
    (∀ i r, m.sockets[i]? = some r → r.live = true → m.ws = some i) ∧
      m.intervals = m.pingInterval.toList ∧
      m.sockets.length ≤ es.count .connect +
        maxReconnectAttempts * es.countP Event.isOpened + maxReconnectAttempts ∧
      ∀ late m', .connect ∉ late → Steps (Step configured) m.disconnect late m' →
        m'.sockets.length = m.sockets.length ∧ (∀ r ∈ m'.sockets, r.live = false) ∧
          m'.intervals = [] := by
  have hm : Sound m := Sound.steps h Sound.new
  refine ⟨hm.live, hm.ping, sockets_le h, fun late m' hlate hsteps => ?_⟩
  have hquiet := hm.quiet_disconnect.steps hlate hsteps
  refine ⟨hquiet.count, fun r hr => ?_, hquiet.silent⟩
  obtain ⟨i, hi⟩ := List.getElem?_of_mem hr
  exact hquiet.dead hi

/-- The node hangs up, the monitor comes back, and the page leaves while the new socket connects. -/
theorem one_socket_sample : ∃ m m' : Monitor,
    Steps (Step true) Monitor.new [.connect, .opened 0, .closed 0, .due ⟨1, 2000⟩] m ∧
      m.ws = some 1 ∧ Steps (Step true) m.disconnect [.closed 1] m' ∧
      m'.sockets.length = m.sockets.length ∧ (∀ r ∈ m'.sockets, r.live = false) ∧
      m'.intervals = [] := by
  have hrun : Steps (Step true) Monitor.new
      [.connect, .opened 0, .closed 0, .due ⟨1, 2000⟩] _ :=
    .cons rfl (.cons rfl (.cons rfl (.cons rfl (.nil _))))
  obtain ⟨-, -, -, h⟩ := one_socket hrun
  refine ⟨_, _, hrun, rfl, .single rfl, h [.closed 1] _ (by decide) (.single rfl)⟩

end Stoppage.Helius
