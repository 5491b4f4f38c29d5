import LibAmqp.Connection.Idle
import Mathlib.Tactic.Positivity

/-!
# When idle time-outs are enforced

Both limits go into one period: if one of them is absent, the period is zero and the timer does not run.
If both are there, reads and writes are looked at often enough (`Inv.step_ends`, with `Lib.Watched`), as
long as the writer is there for what has to be sent.
-/

namespace Amqp.Idle

open Lib

variable {lib : Libev} {s : Idle} {idleTimeOut remoteIdleTimeOut : Nat} {o : Opening}

/-! ## The period -/

theorem period_pos_iff : 0 < (idleTimeouts idleTimeOut remoteIdleTimeOut).period ↔
    0 < idleTimeOut ∧ 0 < remoteIdleTimeOut := by
  have hlocal : 0 < (idleTimeOut : ℚ) / 1000 ↔ 0 < idleTimeOut := by
    rw [div_pos_iff_of_pos_right (by norm_num)]
    exact Nat.cast_pos
  have hremote : 0 < (remoteIdleTimeOut : ℚ) / 2000 ↔ 0 < remoteIdleTimeOut := by
    rw [div_pos_iff_of_pos_right (by norm_num)]
    exact Nat.cast_pos
  unfold idleTimeouts
  dsimp only
  rw [div_pos_iff_of_pos_right (by norm_num), ← hlocal, ← hremote]
  split
  · rename_i hlt
    exact ⟨fun h => ⟨h, lt_trans h hlt⟩, fun h => h.1⟩
  · rename_i hle
    exact ⟨fun h => ⟨lt_of_lt_of_le h (not_lt.1 hle), h⟩, fun h => h.2⟩

theorem period_le : 2 * (idleTimeouts idleTimeOut remoteIdleTimeOut).period ≤ (idleTimeOut : ℚ) / 1000 ∧
    2 * (idleTimeouts idleTimeOut remoteIdleTimeOut).period ≤ (remoteIdleTimeOut : ℚ) / 2000 := by
  unfold idleTimeouts
  dsimp only
  rw [mul_div_cancel₀ _ (by norm_num : (2 : ℚ) ≠ 0)]
  split
  · rename_i hlt
    exact ⟨le_refl _, le_of_lt hlt⟩
  · rename_i hle
    exact ⟨not_lt.1 hle, le_refl _⟩

/-! ## Ticks -/

/-- The last completed write was fresh at the last tick, or what is outstanding was written then. -/
def WriteWatched (tick w : ℚ) (s : Idle) : Prop :=
  Watched s.timeouts.remoteTimeout s.timeouts.period tick s.now w ∨
    s.writing = true ∧ s.lastWriteTime + s.timeouts.remoteTimeout < tick ∧
      tick ≤ w + s.timeouts.remoteTimeout + s.timeouts.period

/-- The last read and the last write are watched with the timer. -/
structure Inv (idleTimeOut remoteIdleTimeOut : Nat) (s : Idle) : Prop where
  timeouts : s.timeouts = idleTimeouts idleTimeOut remoteIdleTimeOut
  watched : ∃ tick w ws, s.writes = w :: ws ∧ s.lastWriteTime ≤ w ∧ w ≤ s.now ∧
    Watched s.timeouts.localTimeout s.timeouts.period tick s.now s.lastReadTime ∧ WriteWatched tick w s ∧
    (s.closing = false → s.timer = ⟨s.timeouts.period, some (tick + s.timeouts.period)⟩)
  chain : s.writes.IsChain fun later earlier => later - earlier ≤ (remoteIdleTimeOut : ℚ) / 1000

theorem Inv.localTimeout_nonneg (h : Inv idleTimeOut remoteIdleTimeOut s) : 0 ≤ s.timeouts.localTimeout := by
  rw [h.timeouts]
  show (0 : ℚ) ≤ idleTimeOut / 1000
  positivity

theorem Inv.remoteTimeout_nonneg (h : Inv idleTimeOut remoteIdleTimeOut s) :
    0 ≤ s.timeouts.remoteTimeout := by
  rw [h.timeouts]
  show (0 : ℚ) ≤ remoteIdleTimeOut / 2000
  positivity

/-- Time goes on until the next tick. -/
theorem Inv.goOn (h : Inv idleTimeOut remoteIdleTimeOut s) {t : ℚ} (hgo : s.CanGoOn t) :
    Inv idleTimeOut remoteIdleTimeOut (s.goOn t) := by
  obtain ⟨hopen, hnow, hnext⟩ := hgo
  obtain ⟨tick, w, ws, hwrites, hlast, hle, hread, hwrite, htimer⟩ := h.watched
  have hsoon : t ≤ tick + s.timeouts.period := by
    rw [htimer hopen] at hnext
    exact hnext _ rfl
  exact ⟨h.timeouts, ⟨tick, w, ws, hwrites, hlast, le_trans hle hnow, hread.wait hnow hsoon,
    hwrite.imp_left fun hwrite => hwrite.wait hnow hsoon, htimer⟩, h.chain⟩

/-- How far apart the last write and now are. -/
theorem Inv.gap (h : Inv idleTimeOut remoteIdleTimeOut s) :
    (s.now :: s.writes).IsChain fun later earlier => later - earlier ≤ (remoteIdleTimeOut : ℚ) / 1000 := by
  obtain ⟨tick, w, ws, hwrites, -, -, hread, hwrite, -⟩ := h.watched
  have hperiod := (@period_le idleTimeOut remoteIdleTimeOut).2
  have hrem : s.timeouts.remoteTimeout = (remoteIdleTimeOut : ℚ) / 2000 := by
    rw [h.timeouts]
    rfl
  have hpos : (0 : ℚ) ≤ remoteIdleTimeOut := Nat.cast_nonneg _
  have hsoon := hread.soon
  have hchain := h.chain
  rw [← h.timeouts] at hperiod
  have hgap : s.now - w ≤ (remoteIdleTimeOut : ℚ) / 1000 := by
    rcases hwrite with hwrite | ⟨-, -, hlate⟩
    · have hage := hwrite.age
      rw [hrem] at hage
      linarith
    · rw [hrem] at hlate
      linarith
  rw [hwrites] at hchain ⊢
  exact .cons_cons hgap hchain

theorem Inv.age (h : Inv idleTimeOut remoteIdleTimeOut s) :
    s.now - s.lastReadTime ≤ 3 / 2 * ((idleTimeOut : ℚ) / 1000) := by
  obtain ⟨tick, w, ws, -, -, -, hread, -, -⟩ := h.watched
  have hage := hread.age
  have hperiod := (@period_le idleTimeOut remoteIdleTimeOut).1
  have hloc : s.timeouts.localTimeout = (idleTimeOut : ℚ) / 1000 := by
    rw [h.timeouts]
    rfl
  rw [hloc, h.timeouts] at hage
  linarith

/-- As long as the connection is open, its timer will expire. -/
theorem Inv.alive (h : Inv idleTimeOut remoteIdleTimeOut s) (hopen : s.closing = false) :
    ∃ next, s.timer.next = some next ∧ s.CanGoOn next := by
  obtain ⟨tick, w, ws, -, -, -, hread, -, htimer⟩ := h.watched
  have hnext := congrArg EvTimer.next (htimer hopen)
  refine ⟨_, hnext, hopen, hread.soon, fun next hmem => ?_⟩
  rw [hnext] at hmem
  exact le_of_eq (Option.some.inj hmem)

theorem Inv.kept (h : Inv idleTimeOut remoteIdleTimeOut s) : Kept idleTimeOut remoteIdleTimeOut s :=
  ⟨fun _ => h.gap, fun _ => h.age, fun _ hopen => h.alive hopen⟩

theorem Inv.read (h : Inv idleTimeOut remoteIdleTimeOut s) :
    Inv idleTimeOut remoteIdleTimeOut { s with lastReadTime := s.now } := by
  obtain ⟨tick, w, ws, hwrites, hlast, hle, hread, hwrite, htimer⟩ := h.watched
  exact ⟨h.timeouts, ⟨tick, w, ws, hwrites, hlast, hle, hread.event h.localTimeout_nonneg, hwrite, htimer⟩,
    h.chain⟩

theorem Inv.written (h : Inv idleTimeOut remoteIdleTimeOut s) :
    Inv idleTimeOut remoteIdleTimeOut s.written := by
  obtain ⟨tick, w, ws, hwrites, hlast, hle, hread, hwrite, htimer⟩ := h.watched
  refine ⟨h.timeouts, ⟨tick, s.now, s.writes, rfl, le_refl _, le_refl _, hread, .inl ?_, htimer⟩, h.gap⟩
  exact ⟨le_trans hread.passed (le_add_of_nonneg_right h.remoteTimeout_nonneg), hread.passed, hread.soon⟩

/-! ## The timer expires -/

/-- The moment of a tick, when the timer goes on: the last write is the older for another period, unless
there is one outstanding that was due before. -/
structure AtTick (idleTimeOut remoteIdleTimeOut : Nat) (s : Idle) (tick w : ℚ) (ws : List ℚ) : Prop where
  inv : Inv idleTimeOut remoteIdleTimeOut s
  period : 0 < s.timeouts.period
  writes : s.writes = w :: ws
  last : s.lastWriteTime ≤ w
  le : w ≤ s.now
  read : Watched s.timeouts.localTimeout s.timeouts.period tick s.now s.lastReadTime
  written : WriteWatched tick w s
  now : s.now = tick + s.timeouts.period
  timer : s.timer.interval = s.timeouts.period

variable {tick w : ℚ} {ws : List ℚ}

/-- Nothing that is outstanding was due before. -/
theorem AtTick.watched (h : AtTick idleTimeOut remoteIdleTimeOut s tick w ws)
    (hsend : s.HasToSend → s.writing = false) :
    Watched s.timeouts.remoteTimeout s.timeouts.period tick s.now w := by
  rcases h.written with hwrite | ⟨hwriting, hdue, -⟩
  · exact hwrite
  · have hquiet : s.lastWriteTime - s.now + s.timeouts.remoteTimeout < 0 := by
      have hnow := h.now
      have hperiod := h.period
      linarith
    exact absurd (hwriting.symm.trans (hsend (.inr hquiet))) (by simp)

theorem commenceWrite_enabled (hwriting : s.writing = false) (completed : Bool) :
    s.commenceWrite completed = .ok (if completed then s.written else { s with writing := true }) := by
  unfold commenceWrite
  rw [hwriting, if_neg (by simp)]
  split
  · rfl
  · rfl

/-- A close is begun: what is watched no more is as it was. -/
theorem AtTick.close_ends (h : AtTick idleTimeOut remoteIdleTimeOut s tick w ws) (hwriting : s.writing = false)
    (completed : Bool) :
    Ends (Inv idleTimeOut remoteIdleTimeOut) (fun _ => False)
      (s.rearm.beginConnectionClose lib completed) := by
  unfold beginConnectionClose
  rw [commenceWrite_enabled (s := s.rearm) hwriting]
  cases completed with
  | true =>
    obtain ⟨tick, w, ws, hwrites, hlast, hle, hread, hwrite, -⟩ := h.inv.written.watched
    exact ⟨h.inv.timeouts, ⟨tick, w, ws, hwrites, hlast, hle, hread, hwrite, by simp⟩, h.inv.gap⟩
  | false =>
    have hwrite := h.watched fun _ => hwriting
    exact ⟨h.inv.timeouts, ⟨tick, w, ws, h.writes, h.last, h.le, h.read, .inl hwrite, by simp⟩, h.inv.chain⟩

/-- An empty frame is sent. -/
theorem AtTick.send_ends (h : AtTick idleTimeOut remoteIdleTimeOut s tick w ws) (hwriting : s.writing = false)
    (hfresh : ¬ s.lastReadTime - s.now + s.timeouts.localTimeout < 0)
    (hquiet : s.lastWriteTime - s.now + s.timeouts.remoteTimeout < 0) (completed : Bool) :
    Ends (Inv idleTimeOut remoteIdleTimeOut) (fun _ => False) (s.rearm.sendEmptyFrame completed) := by
  have hread : Watched s.timeouts.localTimeout s.timeouts.period s.now s.now s.lastReadTime :=
    .checked h.period.le (by linarith)
  have htimer : s.rearm.timer = ⟨s.timeouts.period, some (s.now + s.timeouts.period)⟩ := by
    show EvTimer.mk s.timer.interval _ = _
    rw [h.timer]
  unfold sendEmptyFrame
  rw [commenceWrite_enabled (s := s.rearm) hwriting]
  cases completed with
  | true =>
    exact ⟨h.inv.timeouts, ⟨s.now, s.now, s.writes, rfl, le_refl _, le_refl _, hread,
      .inl (.start h.inv.remoteTimeout_nonneg h.period.le _), fun _ => htimer⟩, h.inv.gap⟩
  | false =>
    have hlate := (h.watched fun _ => hwriting).age
    have hdue : s.lastWriteTime + s.timeouts.remoteTimeout < s.now := by linarith
    exact ⟨h.inv.timeouts, ⟨s.now, w, ws, h.writes, h.last, h.le, hread, .inr ⟨rfl, hdue, hlate⟩,
      fun _ => htimer⟩, h.inv.chain⟩

/-- Nothing has to be sent. -/
theorem AtTick.fresh (h : AtTick idleTimeOut remoteIdleTimeOut s tick w ws)
    (hread : ¬ s.lastReadTime - s.now + s.timeouts.localTimeout < 0)
    (hwrite : ¬ s.lastWriteTime - s.now + s.timeouts.remoteTimeout < 0) :
    Inv idleTimeOut remoteIdleTimeOut s.rearm := by
  have hlast := h.last
  refine ⟨h.inv.timeouts, ⟨s.now, w, ws, h.writes, h.last, h.le, .checked h.period.le ?_,
    .inl (.checked h.period.le ?_), fun _ => ?_⟩, h.inv.chain⟩
  · show s.now ≤ s.lastReadTime + s.timeouts.localTimeout
    linarith
  · show s.now ≤ w + s.timeouts.remoteTimeout
    linarith
  · show EvTimer.mk s.timer.interval _ = _
    rw [h.timer]
    rfl

theorem AtTick.expired_ends (h : AtTick idleTimeOut remoteIdleTimeOut s tick w ws)
    (hsend : s.HasToSend → s.writing = false) (completed : Bool) :
    Ends (Inv idleTimeOut remoteIdleTimeOut) (fun _ => False)
      (s.rearm.timeoutExpiredWhileOpened lib completed) := by
  unfold timeoutExpiredWhileOpened
  by_cases hidle : s.lastReadTime - s.now + s.timeouts.localTimeout < 0
  · rw [if_pos (by exact hidle)]
    exact h.close_ends (hsend (.inl hidle)) completed
  · rw [if_neg (by exact hidle)]
    by_cases hquiet : s.lastWriteTime - s.now + s.timeouts.remoteTimeout < 0
    · rw [if_pos (by exact hquiet)]
      exact h.send_ends (hsend (.inr hquiet)) hidle hquiet completed
    · rw [if_neg (by exact hquiet)]
      exact h.fresh hidle hquiet

theorem Inv.atTick (h : Inv idleTimeOut remoteIdleTimeOut s) (hperiod : 0 < s.timeouts.period) {t : ℚ}
    (ht : s.timer.next = some t) (hgo : s.CanGoOn t) :
    ∃ tick w ws, AtTick idleTimeOut remoteIdleTimeOut (s.goOn t) tick w ws := by
  have h1 := h.goOn hgo
  obtain ⟨tick, w, ws, hwrites, hlast, hle, hread, hwrite, htimer⟩ := h1.watched
  have htimer1 : s.timer = ⟨s.timeouts.period, some (tick + s.timeouts.period)⟩ := htimer hgo.1
  have hnow : t = tick + s.timeouts.period := by
    rw [htimer1] at ht
    exact (Option.some.inj ht).symm
  exact ⟨tick, w, ws, h1, hperiod, hwrites, hlast, hle, hread, hwrite, hnow, congrArg EvTimer.interval htimer1⟩

/-! ## Runs -/

theorem Inv.opened (hlocal : 0 < idleTimeOut) (hremote : 0 < remoteIdleTimeOut) :
    Inv idleTimeOut remoteIdleTimeOut (opened lib idleTimeOut remoteIdleTimeOut o) := by
  have hpos : 0 < (idleTimeouts idleTimeOut remoteIdleTimeOut).period := period_pos_iff.2 ⟨hlocal, hremote⟩
  refine ⟨rfl, ⟨o.now, o.now, [], rfl, o.before, le_refl _, .start ?_ hpos.le o.now,
    .inl (.start ?_ hpos.le o.now), fun _ => ?_⟩, .singleton _⟩
  · show (0 : ℚ) ≤ idleTimeOut / 1000
    positivity
  · show (0 : ℚ) ≤ remoteIdleTimeOut / 2000
    positivity
  · show EvTimer.mk _ (lib.again o.now _) = _
    rw [lib.again_of_pos _ _ hpos]
    rfl

theorem Inv.step_ends (hlocal : 0 < idleTimeOut) (hremote : 0 < remoteIdleTimeOut)
    (h : Inv idleTimeOut remoteIdleTimeOut s) (e : Event) (hsend : s.CanSend e) :
    Ends (Inv idleTimeOut remoteIdleTimeOut) (fun _ => False) (s.step lib e) := by
  cases e with
  | wait t =>
    unfold Idle.step
    dsimp only
    split
    · next hgo => exact h.goOn hgo
    · exact h
  | read t =>
    unfold Idle.step
    dsimp only
    split
    · next hgo => exact (h.goOn hgo).read
    · exact h
  | written t =>
    unfold Idle.step
    dsimp only
    split
    · next hgo => exact (h.goOn hgo).written
    · exact h
  | tick completed =>
    have hperiod : 0 < s.timeouts.period := by
      rw [h.timeouts]
      exact period_pos_iff.2 ⟨hlocal, hremote⟩
    unfold Idle.step
    dsimp only
    split
    · next t ht =>
      split
      · next hgo =>
        obtain ⟨tick, w, ws, htick⟩ := h.atTick hperiod ht hgo
        exact htick.expired_ends (hsend t ht hgo) completed
      · exact h
    · exact h

/-- The timer does not run. -/
theorem step_disarmed (hnext : s.timer.next = none) (e : Event) :
    Ends (fun s' => s'.timer.next = none) (fun _ => False) (s.step lib e) := by
  cases e with
  | wait t =>
    unfold Idle.step
    dsimp only
    split
    all_goals exact hnext
  | read t =>
    unfold Idle.step
    dsimp only
    split
    all_goals exact hnext
  | written t =>
    unfold Idle.step
    dsimp only
    split
    all_goals exact hnext
  | tick completed =>
    unfold Idle.step
    rw [hnext]
    exact hnext

/-- A write is commenced while another is outstanding. -/
theorem step_of_not_canSend {e : Event} (h : ¬ s.CanSend e) : ∃ fault, s.step lib e = .error fault := by
  cases e with
  | wait t => exact absurd trivial h
  | read t => exact absurd trivial h
  | written t => exact absurd trivial h
  | tick completed =>
    unfold CanSend at h
    push Not at h
    obtain ⟨t, ht, hgo, hsend, hwriting⟩ := h
    have hbusy : (s.goOn t).rearm.commenceWrite completed = .error .writeWhileWriting :=
      if_pos ((Bool.not_eq_false _).mp hwriting)
    refine ⟨.writeWhileWriting, ?_⟩
    unfold Idle.step
    dsimp only
    rw [Option.mem_def.mp ht]
    dsimp only
    rw [if_pos hgo]
    unfold timeoutExpiredWhileOpened
    by_cases hidle : (s.goOn t).lastReadTime - (s.goOn t).now + (s.goOn t).timeouts.localTimeout < 0
    · rw [if_pos (by exact hidle), beginConnectionClose, hbusy]
      rfl
    · rw [if_neg (by exact hidle), if_pos (by exact hsend.resolve_left hidle)]
      exact hbusy

/-- Without both limits the period is zero. -/
theorem period_eq_zero (h : ¬ (0 < idleTimeOut ∧ 0 < remoteIdleTimeOut)) :
    (idleTimeouts idleTimeOut remoteIdleTimeOut).period = 0 := by
  refine le_antisymm (not_lt.1 (mt period_pos_iff.1 h)) ?_
  unfold idleTimeouts
  dsimp only
  split
  all_goals positivity

theorem opened_disarmed (lib : Libev) (o : Opening) (h : ¬ (0 < idleTimeOut ∧ 0 < remoteIdleTimeOut)) :
    (opened lib idleTimeOut remoteIdleTimeOut o).timer.next = none := by
  show lib.again o.now (idleTimeouts idleTimeOut remoteIdleTimeOut).period = none
  rw [period_eq_zero h, lib.again_zero]

/-- The flag by which `AmqpConnection.connectionOpened` says that the timer runs. -/
theorem timer_runs_iff (lib : Libev) (o : Opening) :
    ((opened lib idleTimeOut remoteIdleTimeOut o).timer.next).isSome =
      (idleTimeOut != 0 && remoteIdleTimeOut != 0) := by
  by_cases hset : 0 < idleTimeOut ∧ 0 < remoteIdleTimeOut
  · show (lib.again o.now (idleTimeouts idleTimeOut remoteIdleTimeOut).period).isSome = _
    rw [lib.again_of_pos _ _ (period_pos_iff.2 hset), Option.isSome_some, eq_comm, Bool.and_eq_true,
      bne_iff_ne, bne_iff_ne]
    omega
  · rw [opened_disarmed lib o hset, Option.isSome_none, eq_comm, Bool.and_eq_false_iff, bne_eq_false_iff_eq,
      bne_eq_false_iff_eq]
    omega

/-- Idle time-outs are enforced in a run if and only if both sides have one, or neither has, and the timer
never expires with something to send while a write is outstanding. -/
theorem enforced_iff (lib : Libev) (idleTimeOut remoteIdleTimeOut : Nat) (o : Opening) (events : List Event) :
    Enforced lib idleTimeOut remoteIdleTimeOut o events ↔ (idleTimeOut = 0 ↔ remoteIdleTimeOut = 0) ∧
      RunMeets (step lib) CanSend (opened lib idleTimeOut remoteIdleTimeOut o) events := by
  constructor
  · intro h
    have harmed := h.armed
    rw [period_pos_iff] at harmed
    exact ⟨by omega, RunMeets.of_ends (fun _ _ hsend => step_of_not_canSend hsend) h.kept⟩
  · rintro ⟨hiff, hmeets⟩
    by_cases hset : 0 < idleTimeOut ∧ 0 < remoteIdleTimeOut
    · obtain ⟨hlocal, hremote⟩ := hset
      have hstep : ∀ s e, Inv idleTimeOut remoteIdleTimeOut s → s.CanSend e →
          Ends (Inv idleTimeOut remoteIdleTimeOut) (fun _ => False) (s.step lib e) :=
        fun _ e h hsend => h.step_ends hlocal hremote e hsend
      have hrun := run_ends hstep events _ (Inv.opened hlocal hremote) hmeets
      exact ⟨fun _ => period_pos_iff.2 ⟨hlocal, hremote⟩, hrun.mono (fun _ h => h.kept) fun _ he => he⟩
    · have hstep : ∀ (s : Idle) (e : Event), s.timer.next = none → True →
          Ends (fun s' => s'.timer.next = none) (fun _ => False) (s.step lib e) :=
        fun _ e h _ => step_disarmed h e
      have hrun := run_ends hstep events _ (opened_disarmed lib o hset) (RunMeets.true events _)
      refine ⟨fun hany => by omega, hrun.mono (fun s _ => ⟨?_, ?_, ?_⟩) fun _ he => he⟩
      all_goals
        intro hpos
        omega

/-- A timer that behaves as it is documented. -/
def Libev.documented : Libev where
  again now interval := if 0 < interval then some (now + interval) else none
  again_of_pos _ _ h := if_pos h
  again_zero _ := if_neg (lt_irrefl _)

/-- The open frame has been read at the time 0, and everything is written. -/
def Opening.atZero : Opening := ⟨0, 0, le_refl 0, false⟩

/-- An empty frame is due at the third tick, and is still being written at the fourth. -/
def stalled : List Event := [.tick true, .tick true, .tick false, .tick true]

/-- A connection that wants to hear of its peer each minute, while the peer has no limit: its timer does not
run. And with both limits, one whose socket takes no more bytes: the second empty frame ends the process. -/
theorem not_enforced_one_sided :
    (¬ Enforced Libev.documented 60000 0 .atZero [] ∧
      (opened Libev.documented 60000 0 .atZero).timer.next = none) ∧
    ¬ Enforced Libev.documented 60000 60000 .atZero stalled ∧
      Ends (fun _ => False) (· = .writeWhileWriting)
        (run (step Libev.documented) (opened Libev.documented 60000 60000 .atZero) stalled) := by
  have hstops : Ends (fun _ => False) (· = .writeWhileWriting)
      (run (step Libev.documented) (opened Libev.documented 60000 60000 .atZero) stalled) := by
    decide +kernel
  refine ⟨⟨fun h => ?_, opened_disarmed _ _ (by simp)⟩, fun h => ?_, hstops⟩
  · have harmed := h.armed (.inl (by decide))
    rw [period_pos_iff] at harmed
    exact Nat.lt_irrefl 0 harmed.2
  · have hkept := h.kept
    cases hrun : run (step Libev.documented) (opened Libev.documented 60000 60000 .atZero) stalled with
    | ok s =>
      rw [hrun] at hstops
      exact hstops
    | error e =>
      rw [hrun] at hkept
      exact hkept

end Amqp.Idle
