import LibAmqp.Connection.State
import LibAmqp.Lib.Watchdog
import Mathlib.Data.Rat.Defs
import Mathlib.Algebra.Order.Ring.Rat

/-!
# Idle time-outs (`Transport/Connection/ConnectionAmqp.c`, `Transport/LowLevel/Timer.c`)

The state `opened` with its timer, its writer, and the times of the last read and the last completed
write. Times are rational numbers of seconds. The timer itself is that of libev: what it does is a
parameter.
-/

namespace Amqp

open Lib

/-- What is documented of `ev_timer_again`: when a timer of some `repeat` expires next. -/
structure Libev where
  again : (now interval : ℚ) → Option ℚ
  again_of_pos : ∀ now interval, 0 < interval → again now interval = some (now + interval)
  again_zero : ∀ now, again now 0 = none

/-- `amqp.connection.timeout`. -/
structure IdleTimeouts where
  localTimeout : ℚ
  remoteTimeout : ℚ
  period : ℚ

/-- What `start_idle_timeouts` computes of the two limits, in milliseconds. -/
def idleTimeouts (idleTimeOut remoteIdleTimeOut : Nat) : IdleTimeouts :=
  let localTimeout := (idleTimeOut : ℚ) / 1000
  let remoteTimeout := (remoteIdleTimeOut : ℚ) / 2000
  { localTimeout := localTimeout
    remoteTimeout := remoteTimeout
    period := (if localTimeout < remoteTimeout then localTimeout else remoteTimeout) / 2 }

structure EvTimer where
  interval : ℚ
  next : Option ℚ

/-- `amqp_timer_start`. -/
def amqpTimerStart (lib : Libev) (now delay : ℚ) : EvTimer := ⟨delay, lib.again now delay⟩

/-- A connection while it is open; `closing` is set once it has begun to close. -/
structure Idle where
  timeouts : IdleTimeouts
  timer : EvTimer
  now : ℚ
  lastReadTime : ℚ
  lastWriteTime : ℚ
  /-- a write is outstanding: the writer is in the state `writing` -/
  writing : Bool
  /-- when writes were completed, the last one first; the opening counts as one, as the limit of the peer
  is known from then on -/
  writes : List ℚ
  closing : Bool

namespace Idle

/-- The moment at which the open frame has been read, when the last write was completed, and whether one
is outstanding: that of a server's own open frame. -/
structure Opening where
  now : ℚ
  lastWriteTime : ℚ
  before : lastWriteTime ≤ now
  writing : Bool

/-- `start_idle_timeouts`. -/
def opened (lib : Libev) (idleTimeOut remoteIdleTimeOut : Nat) (o : Opening) : Idle where
  timeouts := idleTimeouts idleTimeOut remoteIdleTimeOut
  timer := amqpTimerStart lib o.now (idleTimeouts idleTimeOut remoteIdleTimeOut).period
  now := o.now
  lastReadTime := o.now
  lastWriteTime := o.lastWriteTime
  writing := o.writing
  writes := [o.now]
  closing := false

/-- A write is completed. -/
def written (s : Idle) : Idle :=
  { s with lastWriteTime := s.now, writes := s.now :: s.writes, writing := false }

/-- `state.writer.commence_write`; the write is completed at once or later. -/
def commenceWrite (completed : Bool) (s : Idle) : Except ConnectionFault Idle :=
  if s.writing then .error .writeWhileWriting
  else if completed then .ok s.written
  else .ok { s with writing := true }

/-- `begin_connection_close`. -/
def beginConnectionClose (lib : Libev) (completed : Bool) (s : Idle) : Except ConnectionFault Idle := do
  let s ← s.commenceWrite completed
  .ok { s with closing := true, timer := amqpTimerStart lib s.now 3 }

/-- `amqp_send_empty_frame`. -/
def sendEmptyFrame (completed : Bool) (s : Idle) : Except ConnectionFault Idle := s.commenceWrite completed

/-- `timeout_expired_while_opened`. -/
def timeoutExpiredWhileOpened (lib : Libev) (completed : Bool) (s : Idle) : Except ConnectionFault Idle :=
  if s.lastReadTime - s.now + s.timeouts.localTimeout < 0 then beginConnectionClose lib completed s
  else if s.lastWriteTime - s.now + s.timeouts.remoteTimeout < 0 then sendEmptyFrame completed s
  else .ok s

inductive Event
  /-- nothing until then -/
  | wait (t : ℚ)
  /-- a read is satisfied -/
  | read (t : ℚ)
  /-- a write is completed -/
  | written (t : ℚ)
  /-- the timer expires; `completed` says whether what is written then is written at once -/
  | tick (completed : Bool)

/-- The connection is open, and the timer does not expire before `t`. -/
def CanGoOn (s : Idle) (t : ℚ) : Prop := s.closing = false ∧ s.now ≤ t ∧ ∀ next ∈ s.timer.next, t ≤ next

instance (s : Idle) (t : ℚ) : Decidable (s.CanGoOn t) :=
  inferInstanceAs (Decidable (_ ∧ _ ∧ ∀ next ∈ s.timer.next, _))

def goOn (t : ℚ) (s : Idle) : Idle := { s with now := t }

/-- The timer goes on by itself. -/
def rearm (s : Idle) : Idle := { s with timer := ⟨s.timer.interval, some (s.now + s.timer.interval)⟩ }

/-- What happens. An event that cannot come yet does nothing. -/
def step (lib : Libev) (s : Idle) : Event → Except ConnectionFault Idle
  | .wait t => .ok (if s.CanGoOn t then s.goOn t else s)
  | .read t => .ok (if s.CanGoOn t then { s.goOn t with lastReadTime := t } else s)
  | .written t => .ok (if s.CanGoOn t then (s.goOn t).written else s)
  | .tick completed => match s.timer.next with
    | some t => if s.CanGoOn t then (s.goOn t).rearm.timeoutExpiredWhileOpened lib completed else .ok s
    | none => .ok s

/-! ## What is expected -/

/-- No two completed writes, and no write and now, are further apart than the peer's limit; and as long as
the connection has not begun to close, the last read is no older than one and a half of its own limit and
the timer will expire. -/
structure Kept (idleTimeOut remoteIdleTimeOut : Nat) (s : Idle) : Prop where
  writes : 0 < remoteIdleTimeOut →
    (s.now :: s.writes).IsChain fun later earlier => later - earlier ≤ (remoteIdleTimeOut : ℚ) / 1000
  reads : 0 < idleTimeOut → s.now - s.lastReadTime ≤ 3 / 2 * ((idleTimeOut : ℚ) / 1000)
  alive : 0 < idleTimeOut → s.closing = false → ∃ next, s.timer.next = some next ∧ s.CanGoOn next

/-- The timer of a connection that has a time-out expires, and in this run nothing ends the process and
the limits are kept. -/
structure Enforced (lib : Libev) (idleTimeOut remoteIdleTimeOut : Nat) (o : Opening) (events : List Event) :
    Prop where
  armed : 0 < idleTimeOut ∨ 0 < remoteIdleTimeOut → 0 < (idleTimeouts idleTimeOut remoteIdleTimeOut).period
  kept : Ends (Kept idleTimeOut remoteIdleTimeOut) (fun _ => False)
    (run (step lib) (opened lib idleTimeOut remoteIdleTimeOut o) events)

/-- The last read or the last write is too old: a close or an empty frame is due. -/
def HasToSend (s : Idle) : Prop :=
  s.lastReadTime - s.now + s.timeouts.localTimeout < 0 ∨
    s.lastWriteTime - s.now + s.timeouts.remoteTimeout < 0

/-- No write is outstanding when the timer expires and something has to be sent. -/
def CanSend (s : Idle) : Event → Prop
  | .tick _ => ∀ t ∈ s.timer.next, s.CanGoOn t → (s.goOn t).HasToSend → s.writing = false
  | .wait _ | .read _ | .written _ => True

end Idle
end Amqp
