import LibAmqp.Buffer.Proof.IoVec
import LibAmqp.Stream.Session

/-!
# The reader does not depend on how the stream is cut

At every state of a session, what the application has seen and what it is still going to see make up
what it sees when the stream is delivered in one piece (`Sim`). Every step keeps this (`step_sim`), and
a session that is not at rest comes closer to it with every piece that is delivered.
-/

namespace Amqp.Stream

open Lib

variable {κ σ : Type} {p : Program κ σ}

/-! ## The ideal, one read at a time -/

theorem Program.ideal_complete {a : σ} {r : Request κ} {got rest : List UInt8}
    (hr : 0 < r.required) (hgot : got.length = r.required) :
    p.ideal a r (got ++ rest) =
      match p.react a r.callback (some (r.buffer.append got)) r.required with
      | (_, none) => ([.called r.callback (some (r.buffer.append got)) r.required], .idle)
      | (a, some r') => (.called r.callback (some (r.buffer.append got)) r.required ::
          (p.ideal a r' rest).1, (p.ideal a r' rest).2) := by
  have hlen : 0 < r.required ∧ r.required ≤ (got ++ rest).length :=
    ⟨hr, by rw [List.length_append]; omega⟩
  have htake : (got ++ rest).take r.required = got := by rw [← hgot, List.take_left]
  have hdrop : (got ++ rest).drop r.required = rest := by rw [← hgot, List.drop_left]
  rw [Program.ideal, dif_pos hlen, htake]
  dsimp only
  rcases p.react a r.callback (some (r.buffer.append got)) r.required with ⟨a', _ | r'⟩
  · rfl
  · dsimp only
    rw [hdrop]

theorem Program.ideal_eof {a : σ} {r : Request κ} (hr : 0 < r.required) :
    p.ideal a r [] = p.idealEof a r := by
  rw [Program.ideal, dif_neg (by simp; omega), if_pos rfl]

theorem Program.ideal_cut {a : σ} {r : Request κ} {got : List UInt8} (hgot : got ≠ [])
    (hlt : got.length < r.required) : p.ideal a r got = ([.connectionFailed], .failed) := by
  rw [Program.ideal, dif_neg (by omega), if_neg hgot]

theorem Program.FitsAlong.fits {a : σ} {r : Request κ} {stream : List UInt8}
    (h : p.FitsAlong a r stream) : r.Fits := by
  cases h with
  | intro fits next => exact fits

/-- The next read fits too. -/
theorem Program.FitsAlong.next {a a' : σ} {r r' : Request κ} {got rest : List UInt8}
    (h : p.FitsAlong a r (got ++ rest)) (hgot : got.length = r.required)
    (hreact : p.react a r.callback (some (r.buffer.append got)) r.required = (a', some r')) :
    p.FitsAlong a' r' rest := by
  cases h with
  | intro fits next =>
    rw [← hgot, List.take_left, List.drop_left, hgot] at next
    have h' := next (by rw [List.length_append]; omega) r' (by rw [hreact]; rfl)
    rwa [hreact] at h'

/-- A program whose reads all fit. -/
theorem Program.Fits.along (hp : p.Fits) : ∀ (n : Nat) (stream : List UInt8), stream.length ≤ n →
    ∀ (a : σ) (r : Request κ), r.Fits → p.FitsAlong a r stream := by
  intro n
  induction n with
  | zero =>
    intro stream hlen a r hr
    have := hr.required_pos
    exact .intro hr fun hle => by omega
  | succ n ih =>
    intro stream hlen a r hr
    have := hr.required_pos
    refine .intro hr fun hle r' hr' => ih _ ?_ _ r' (hp _ _ _ _ r' hr')
    rw [List.length_drop]
    omega

/-! ## One `readv` -/

/-- What `readv` is followed by when the bytes that are needed fit the buffer. -/
theorem Reader.readvDone_eq {s : Reader κ} {b : Buffer} {needed : Nat} {a : Return}
    (hb : s.buffer = some b) (hneeded : 0 < needed) (hroom : needed ≤ b.capacity - b.size)
    (r : ReadvResult) :
    s.readvDone needed a r =
      match r with
      | .bytes first more =>
        readLoop (needed - ((first :: more).take needed).length) a { s with
          readvs := s.readvs + 1
          buffer := some (b.append ((first :: more).take needed))
          satisfied := s.satisfied + ((first :: more).take needed).length }
      | .again => setWatcher true { s with readvs := s.readvs + 1, needed := none }
      | .eof | .reset => readEof { s with readvs := s.readvs + 1, needed := none }
      | .error => fail { s with readvs := s.readvs + 1, needed := none } := by
  have hcap := b.capacity_le
  obtain ⟨vectors, hfill, -⟩ := Buffer.fillIoVec_covers (i := b.size) (n := needed) (by omega)
  have hvec : b.writeIoVec needed = .ok vectors := by rw [Buffer.writeIoVec, if_pos hroom, hfill]
  unfold readvDone
  rw [hb]
  simp only [Reader.ofBuffer, hvec, Stream.ofBuffer]
  cases r with
  | bytes first more =>
    have hlen : ((first :: more).take needed).length ≤ needed := by
      rw [List.length_take]
      omega
    simp only [Buffer.receive_eq hroom hneeded hlen]
    rfl
  | _ => rfl

theorem Reader.callReadCallback_eq {s : Reader κ} {k : κ} (after : Return) (hk : s.callback = some k) :
    s.callReadCallback after = .ok { s with
      callback := none, buffer := none, satisfied := 0, returns := after :: s.returns,
      marks := s.marks ++ [.called k s.buffer s.satisfied] } := by
  unfold callReadCallback
  rw [hk]
  rfl

/-- The stream ends between two reads. -/
theorem Reader.readEof_whole {s : Reader κ} {k : κ} (h : s.satisfied = 0) (hk : s.callback = some k) :
    s.readEof = .ok { s with
      name := .eof, callback := none, buffer := none, satisfied := 0, returns := .leaving :: s.returns,
      marks := s.marks ++ [.called k s.buffer s.satisfied] } := by
  rw [readEof, if_neg (by simp [isPartialRead, h])]
  exact callReadCallback_eq (s := { s with name := .eof }) _ hk

/-- The stream ends in the middle of a read. -/
theorem Reader.readEof_cut {s : Reader κ} {started : Bool} (h0 : 0 < s.satisfied)
    (h : s.satisfied < s.required) (hw : s.watcher = some started) :
    s.readEof = .ok { s with
      name := .failed, watcher := none, returns := .leaving :: s.returns,
      marks := s.marks ++ [.connectionFailed] } := by
  rw [readEof, if_pos (by simp [isPartialRead, h0, h]), setWatcher, hw]
  rfl

/-- The bytes that `readv` delivers are the next of the stream. -/
theorem Session.delivers_some {stream : List UInt8} {needed n : Nat} (h : stream ≠ [])
    (hneeded : 0 < needed) :
    ∃ first more rest, Session.delivers stream needed (some n) = (.bytes first more, rest) ∧
      (first :: more).take needed = first :: more ∧ stream = first :: more ++ rest := by
  cases stream with
  | nil => exact absurd rfl h
  | cons first more =>
    refine ⟨first, more.take (min n (needed - 1)), more.drop (min n (needed - 1)), rfl, ?_, ?_⟩
    · apply List.take_of_length_le
      rw [List.length_cons, List.length_take]
      omega
    · rw [List.cons_append, List.take_append_drop]

namespace Session

/-! ## The simulation -/

/-- The reader has been asked for `r`, and has read `got` of it. -/
structure Reading (s : Session κ σ) (r : Request κ) (got : List UInt8) : Prop where
  name : s.reader.name = .reading
  callback : s.reader.callback = some r.callback
  buffer : s.reader.buffer = some (r.buffer.append got)
  required : s.reader.required = r.required
  satisfied : s.reader.satisfied = got.length
  left : got.length < r.required
  returns : s.reader.returns = []
  requests : s.requests = []

/-- A callback runs that was called for a read that is complete. -/
structure Calling (s : Session κ σ) : Prop where
  name : s.reader.name = .reading
  returns : ∃ after, s.reader.returns = [after] ∧ after ≠ .leaving
  needed : s.reader.needed = none
  watcher : s.reader.watcher = some false

/-- The stream has ended. -/
structure Ended (s : Session κ σ) : Prop where
  needed : s.reader.needed = none
  watcher : s.reader.watcher ≠ some true
  returns : s.reader.returns = List.replicate s.requests.length .leaving
  name : s.reader.name ≠ .reading

/-- What the application is still going to see, and how far it is to rest. -/
inductive Phase (p : Program κ σ) (s : Session κ σ) : List (ReadMark κ) × Ending → Nat → Prop
  | waiting (r : Request κ) (got : List UInt8) (h : Reading s r got)
      (fits : p.FitsAlong s.app r (got ++ s.stream))
      (watcher : s.reader.watcher = some true) (needed : s.reader.needed = none) :
      Phase p s (p.ideal s.app r (got ++ s.stream)) (8 * s.stream.length + 13)
  | reading (r : Request κ) (got : List UInt8) (after : Return) (h : Reading s r got)
      (fits : p.FitsAlong s.app r (got ++ s.stream))
      (watcher : s.reader.watcher = some false)
      (needed : s.reader.needed = some (r.required - got.length, after)) (hafter : after ≠ .leaving) :
      Phase p s (p.ideal s.app r (got ++ s.stream)) (8 * s.stream.length + 12)
  | asking (r : Request κ) (h : Calling s) (fits : p.FitsAlong s.app r s.stream) (callback : s.reader.callback = none)
      (buffer : s.reader.buffer = none) (requests : s.requests = [some r]) :
      Phase p s (p.ideal s.app r s.stream) (8 * s.stream.length + 15)
  | asked (r : Request κ) (h : Calling s) (fits : p.FitsAlong s.app r s.stream)
      (callback : s.reader.callback = some r.callback)
      (buffer : s.reader.buffer = some r.buffer) (required : s.reader.required = r.required)
      (satisfied : s.reader.satisfied = 0) (requests : s.requests = [none]) :
      Phase p s (p.ideal s.app r s.stream) (8 * s.stream.length + 14)
  | done (h : Calling s) (callback : s.reader.callback = none) (buffer : s.reader.buffer = none)
      (requests : s.requests = [none]) : Phase p s ([], .idle) 1
  | idle (name : s.reader.name = .enabled) (needed : s.reader.needed = none)
      (watcher : s.reader.watcher = some false) (returns : s.reader.returns = [])
      (requests : s.requests = []) : Phase p s ([], .idle) 0
  | eof (r : Request κ) (h : Ended s) (name : s.reader.name = .eof) (buffer : s.reader.buffer = none)
      (requests : s.requests = [some r]) :
      Phase p s ([.called r.callback none 0],
        if (p.react s.app r.callback none 0).2.isSome then .fatal else .idle) 4
  | fatal (r : Request κ) (h : Ended s) (name : s.reader.name = .eofAlerted)
      (requests : s.requests = [some r, none]) : Phase p s ([], .fatal) 3
  | finished (ending : Ending) (h : Ended s) (hending : ending ≠ .fatal)
      (requests : ∀ q ∈ s.requests, q = none) : Phase p s ([], ending) s.requests.length

/-- What the application has seen, and what it is still going to see. -/
def Sim (p : Program κ σ) (total : List (ReadMark κ) × Ending) (s : Session κ σ) (μ : Nat) : Prop :=
  ∃ rest, Phase p s rest μ ∧ total = (s.reader.marks ++ rest.1, rest.2)

/-- What a step does: it keeps the simulation, and comes closer to rest. -/
def Goes (p : Program κ σ) (total : List (ReadMark κ) × Ending) (μ : Nat) :
    Except (ReaderCrash κ) (Session κ σ) → Prop :=
  Ends (fun s => ∃ μ' < μ, Sim p total s μ') (Fatal total)

/-! ## Steps -/

/-- The reader makes a step in which the application is not called. -/
theorem advance_quiet {s : Session κ σ} {i : ReaderInput κ} {reader : Reader κ}
    (h : s.reader.step i = .ok reader) (hm : reader.marks = s.reader.marks) :
    s.advance p i = .ok { s with reader := reader } := by
  rw [advance, h]
  change Except.ok _ = _
  rw [hm, List.drop_length]
  rfl

/-- The reader makes a step in which the application is called. -/
theorem advance_called {s : Session κ σ} {i : ReaderInput κ} {reader : Reader κ} {m : ReadMark κ}
    (h : s.reader.step i = .ok reader) (hm : reader.marks = s.reader.marks ++ [m]) :
    s.advance p i = .ok (absorb p { s with reader := reader } m) := by
  rw [advance, h]
  change Except.ok _ = _
  rw [hm, List.drop_left]
  rfl

theorem absorb_called {s : Session κ σ} {k : κ} {b : Option Buffer} {n : Nat} {app : σ}
    {q : Option (Request κ)} (h : p.react s.app k b n = (app, q)) :
    absorb p s (.called k b n) = { s with app := app, requests := q :: s.requests } := by
  unfold absorb
  simp only [h]

/-- The application reacts to the end of the stream. -/
theorem eof_goes {s : Session κ σ} {r : Request κ} {marks : List (ReadMark κ)} {μ : Nat}
    (hneeded : s.reader.needed = none) (hwatcher : s.reader.watcher = some false)
    (hname : s.reader.name = .eof) (hbuffer : s.reader.buffer = none)
    (hreturns : s.reader.returns = [.leaving]) (hrequests : s.requests = [])
    (hmarks : s.reader.marks = marks ++ [.called r.callback (some r.buffer) 0]) (hμ : 4 < μ) :
    Goes p (marks ++ (p.idealEof s.app r).1, (p.idealEof s.app r).2) μ
      (.ok (absorb p s (.called r.callback (some r.buffer) 0))) := by
  have hended : ∀ (app : σ) (q : Option (Request κ)), Ended { s with app := app, requests := [q] } :=
    fun app q => ⟨hneeded, by simp [hwatcher], by simp [hreturns], by simp [hname]⟩
  unfold Program.idealEof
  rcases hreact : p.react s.app r.callback (some r.buffer) 0 with ⟨app, _ | r'⟩
  · rw [absorb_called hreact, hrequests]
    exact ⟨1, by omega, _, .finished .idle (hended app none) (by simp) (by simp), by simp [hmarks]⟩
  · rw [absorb_called hreact, hrequests]
    refine ⟨4, hμ, _, .eof r' (hended app (some r')) hname hbuffer rfl, ?_⟩
    simp [hmarks]

/-- The connection fails, since the stream ended in the middle of a read. -/
theorem cut_goes {s : Session κ σ} {marks : List (ReadMark κ)} {μ : Nat}
    (hneeded : s.reader.needed = none) (hwatcher : s.reader.watcher = none)
    (hname : s.reader.name = .failed) (hreturns : s.reader.returns = [.leaving])
    (hrequests : s.requests = []) (hmarks : s.reader.marks = marks ++ [.connectionFailed]) (hμ : 1 < μ) :
    Goes p (marks ++ [.connectionFailed], .failed) μ (.ok (absorb p s .connectionFailed)) := by
  unfold absorb
  rw [hrequests]
  exact ⟨1, hμ, ([], .failed), .finished .failed
    ⟨hneeded, by simp [hwatcher], by simp [hreturns], by simp [hname]⟩ (by simp) (by simp), by simp [hmarks]⟩

/-- The application reacts to bytes. -/
theorem complete_goes {s : Session κ σ} {r : Request κ} {g : List UInt8}
    {marks : List (ReadMark κ)} {μ : Nat} (hcalling : Calling s) (hcallback : s.reader.callback = none)
    (hbuffer : s.reader.buffer = none) (hrequests : s.requests = [])
    (hfits : p.FitsAlong s.app r (g ++ s.stream)) (hgot : g.length = r.required)
    (hmarks : s.reader.marks = marks ++ [.called r.callback (some (r.buffer.append g)) r.required])
    (hμ : 8 * s.stream.length + 15 < μ) :
    Goes p (marks ++ (p.ideal s.app r (g ++ s.stream)).1, (p.ideal s.app r (g ++ s.stream)).2) μ
      (.ok (absorb p s (.called r.callback (some (r.buffer.append g)) r.required))) := by
  have hcalling' : ∀ (app : σ) (requests : List (Option (Request κ))),
      Calling { s with app := app, requests := requests } :=
    fun app requests => ⟨hcalling.name, hcalling.returns, hcalling.needed, hcalling.watcher⟩
  rw [Program.ideal_complete hfits.fits.required_pos hgot]
  rcases hreact : p.react s.app r.callback (some (r.buffer.append g)) r.required with ⟨app, _ | r'⟩
  · rw [absorb_called hreact, hrequests]
    exact ⟨1, by omega, _, .done (hcalling' app _) hcallback hbuffer rfl, by simp [hmarks]⟩
  · rw [absorb_called hreact, hrequests]
    refine ⟨_, hμ, _, .asking r' (hcalling' app _) (hfits.next hgot hreact) hcallback hbuffer rfl, ?_⟩
    simp [hmarks]

/-- The end of the stream comes while a read is outstanding. -/
theorem readEof_goes {s : Session κ σ} {r : Request κ} {got : List UInt8} {after : Return}
    (h : Reading s r got) (hfits : p.FitsAlong s.app r (got ++ s.stream)) (hwatcher : s.reader.watcher = some false)
    (hneeded : s.reader.needed = some (r.required - got.length, after)) (hstream : s.stream = []) :
    Goes p (s.reader.marks ++ (p.ideal s.app r (got ++ s.stream)).1,
        (p.ideal s.app r (got ++ s.stream)).2) (8 * s.stream.length + 12)
      ({ s with stream := [] }.advance p (.readv .eof)) := by
  have hleft := h.left
  have hstep : s.reader.step (.readv .eof) =
      Reader.readEof { s.reader with readvs := s.reader.readvs + 1, needed := none } := by
    unfold Reader.step
    rw [hneeded]
    exact Reader.readvDone_eq h.buffer (by omega) (by
      have := hfits.fits.room
      simp only [Buffer.append]
      omega) _
  rw [hstream, List.append_nil]
  by_cases hgot : got = []
  · subst hgot
    rw [Program.ideal_eof hfits.fits.required_pos]
    replace hstep := hstep.trans (Reader.readEof_whole
      (s := { s.reader with readvs := s.reader.readvs + 1, needed := none }) h.satisfied h.callback)
    simp only [h.buffer, h.satisfied, Buffer.append_nil, List.length_nil] at hstep
    rw [advance_called (s := { s with stream := [] }) hstep rfl]
    exact eof_goes (s := ⟨_, s.app, s.requests, []⟩) rfl hwatcher rfl rfl (by simp [h.returns])
      h.requests rfl (by omega)
  · have hpos : 0 < got.length := by
      cases got with
      | nil => exact absurd rfl hgot
      | cons => simp
    rw [Program.ideal_cut hgot hleft]
    replace hstep := hstep.trans (Reader.readEof_cut
      (s := { s.reader with readvs := s.reader.readvs + 1, needed := none })
      (by simp only [h.satisfied]; exact hpos) (by simp only [h.satisfied, h.required]; exact hleft) hwatcher)
    rw [advance_called (s := { s with stream := [] }) hstep rfl]
    exact cut_goes (s := ⟨_, s.app, s.requests, []⟩) rfl rfl rfl (by simp [h.returns]) h.requests rfl
      (by omega)

/-- Some of the bytes come. -/
theorem readBytes_goes {s : Session κ σ} {r : Request κ} {got rest : List UInt8} {after : Return}
    {first : UInt8} {more : List UInt8} (h : Reading s r got)
    (hfits : p.FitsAlong s.app r (got ++ s.stream)) (hwatcher : s.reader.watcher = some false)
    (hneeded : s.reader.needed = some (r.required - got.length, after)) (hafter : after ≠ .leaving)
    (htake : (first :: more).take (r.required - got.length) = first :: more)
    (hstream : s.stream = first :: more ++ rest) :
    Goes p (s.reader.marks ++ (p.ideal s.app r (got ++ s.stream)).1,
        (p.ideal s.app r (got ++ s.stream)).2) (8 * s.stream.length + 12)
      ({ s with stream := rest }.advance p (.readv (.bytes first more))) := by
  have hleft := h.left
  have hle : (first :: more).length ≤ r.required - got.length := by
    rw [← htake, List.length_take]
    omega
  have hstep : s.reader.step (.readv (.bytes first more)) =
      Reader.readLoop (r.required - got.length - (first :: more).length) after { s.reader with
        readvs := s.reader.readvs + 1
        buffer := some (r.buffer.append (got ++ first :: more))
        satisfied := s.reader.satisfied + (first :: more).length } := by
    unfold Reader.step
    rw [hneeded]
    have hroom : r.required - got.length ≤
        (r.buffer.append got).capacity - (r.buffer.append got).size := by
      have := hfits.fits.room
      simp only [Buffer.append]
      omega
    have hdone := Reader.readvDone_eq h.buffer (by omega) hroom (.bytes first more) (a := after)
    simp only [htake, Buffer.append_append] at hdone
    exact hdone
  have htotal : got ++ s.stream = (got ++ first :: more) ++ rest := by rw [hstream, List.append_assoc]
  have hlen : (got ++ first :: more).length = got.length + (first :: more).length := List.length_append
  have hshorter : rest.length + 1 ≤ s.stream.length := by
    rw [hstream, List.length_append, List.length_cons]
    omega
  rw [htotal] at hfits ⊢
  by_cases hmore : 0 < r.required - got.length - (first :: more).length
  · -- there is more to come
    rw [Reader.readLoop, if_pos hmore] at hstep
    rw [advance_quiet (s := { s with stream := rest }) hstep rfl]
    refine ⟨8 * rest.length + 12, by omega, _,
      .reading r (got ++ first :: more) after ⟨h.name, h.callback, rfl, h.required, ?_, ?_, h.returns,
        h.requests⟩ hfits hwatcher ?_ hafter, rfl⟩
    · simp only [h.satisfied, hlen]
    · omega
    · simp only [hlen, Nat.sub_add_eq]
  · rw [Reader.readLoop, if_neg hmore] at hstep
    replace hstep := hstep.trans (Reader.callReadCallback_eq (s := { s.reader with
        readvs := s.reader.readvs + 1
        buffer := some (r.buffer.append (got ++ first :: more))
        satisfied := s.reader.satisfied + (first :: more).length
        needed := none }) after h.callback)
    have hrequired : s.reader.satisfied + (first :: more).length = r.required := by
      rw [h.satisfied]
      omega
    simp only [hrequired] at hstep
    rw [advance_called (s := { s with stream := rest }) hstep rfl]
    exact complete_goes (s := ⟨_, s.app, s.requests, rest⟩) (g := got ++ first :: more)
      ⟨h.name, ⟨after, by simp [h.returns], hafter⟩, rfl, hwatcher⟩ rfl rfl h.requests
      hfits (by omega) rfl (by simp only; omega)

/-! ## The callbacks -/

theorem callbackReturns_eq {s : Session κ σ} (h : Calling s) :
    s.reader.step .callbackReturns = Reader.delayedReadWhileReading { s.reader with returns := [] } := by
  obtain ⟨after, hreturns, hafter⟩ := h.returns
  cases after with
  | completing => simp only [Reader.step, h.needed, hreturns, Reader.resume, Reader.delayedRead, h.name]
  | looping => simp only [Reader.step, h.needed, hreturns, Reader.resume]
  | leaving => exact absurd rfl hafter

/-- The callback that runs asks for its read. -/
theorem asking_goes {s : Session κ σ} {r : Request κ} (h : Calling s)
    (fits : p.FitsAlong s.app r s.stream)
    (hcallback : s.reader.callback = none) (hbuffer : s.reader.buffer = none)
    (hrequests : s.requests = [some r]) :
    Goes p (s.reader.marks ++ (p.ideal s.app r s.stream).1, (p.ideal s.app r s.stream).2)
      (8 * s.stream.length + 15) (s.step p .move) := by
  have hstep : s.reader.step (.commenceRead r) = .ok (s.reader.queueReadOperation r) := by
    simp only [Reader.step, h.needed, Reader.commenceRead, h.name, hcallback, hbuffer]
    rfl
  simp only [step, h.needed, hrequests, Option.isSome_none, Bool.false_eq_true, if_false]
  rw [advance_quiet (s := { s with requests := [none] }) hstep rfl]
  exact ⟨_, Nat.lt_succ_self _, _, .asked r ⟨h.name, h.returns, h.needed, h.watcher⟩ fits rfl rfl rfl rfl rfl,
    rfl⟩

/-- A callback returns that has asked for a read. -/
theorem asked_goes {s : Session κ σ} {r : Request κ} (h : Calling s)
    (fits : p.FitsAlong s.app r s.stream)
    (hcallback : s.reader.callback = some r.callback) (hbuffer : s.reader.buffer = some r.buffer)
    (hrequired : s.reader.required = r.required) (hsatisfied : s.reader.satisfied = 0)
    (hrequests : s.requests = [none]) :
    Goes p (s.reader.marks ++ (p.ideal s.app r s.stream).1, (p.ideal s.app r s.stream).2)
      (8 * s.stream.length + 14) (s.step p .move) := by
  have hpos := fits.fits.required_pos
  have hstep : s.reader.step .callbackReturns =
      .ok { s.reader with returns := [], needed := some (r.required, .looping) } := by
    rw [callbackReturns_eq h, Reader.delayedReadWhileReading, if_pos (by simp [Reader.isReadQueued, hbuffer])]
    simp only [Reader.readWhatIsBuffered, Reader.readLoop, hrequired, hsatisfied, Nat.sub_zero, hpos,
      if_true, h.name]
  simp only [step, h.needed, hrequests, Option.isSome_none, Bool.false_eq_true, if_false]
  rw [advance_quiet (s := { s with requests := [] }) hstep rfl]
  have hreading : Reading (σ := σ) ⟨{ s.reader with returns := [], needed := some (r.required, .looping) },
      s.app, [], s.stream⟩ r [] :=
    ⟨h.name, hcallback, by simp [hbuffer, Buffer.append_nil], hrequired, hsatisfied, hpos, rfl, rfl⟩
  exact ⟨8 * s.stream.length + 12, by omega, _,
    .reading r [] .looping hreading fits h.watcher rfl (by simp), rfl⟩

/-- A callback returns that has asked for nothing. -/
theorem done_goes {s : Session κ σ} (h : Calling s) (hbuffer : s.reader.buffer = none)
    (hrequests : s.requests = [none]) :
    Goes p (s.reader.marks ++ [], .idle) 1 (s.step p .move) := by
  have hstep : s.reader.step .callbackReturns =
      .ok { s.reader with returns := [], name := .enabled } := by
    rw [callbackReturns_eq h, Reader.delayedReadWhileReading, if_neg (by simp [Reader.isReadQueued, hbuffer])]
  simp only [step, h.needed, hrequests, Option.isSome_none, Bool.false_eq_true, if_false]
  rw [advance_quiet (s := { s with requests := [] }) hstep rfl]
  exact ⟨0, by omega, _, .idle rfl h.needed h.watcher rfl rfl, rfl⟩

/-- The application reacts to the second notice of the end of the stream. -/
theorem alerted_goes {s : Session κ σ} {k : κ} {marks : List (ReadMark κ)}
    (hneeded : s.reader.needed = none) (hwatcher : s.reader.watcher ≠ some true)
    (hname : s.reader.name = .eofAlerted) (hreturns : s.reader.returns = [.leaving, .leaving])
    (hrequests : s.requests = [none]) (hmarks : s.reader.marks = marks ++ [.called k none 0]) :
    Goes p (marks ++ [.called k none 0],
        if (p.react s.app k none 0).2.isSome then .fatal else .idle) 4
      (.ok (absorb p s (.called k none 0))) := by
  have hended : ∀ (app : σ) (q : Option (Request κ)),
      Ended { s with app := app, requests := [q, none] } :=
    fun app q => ⟨hneeded, hwatcher, by simp [hreturns], by simp [hname]⟩
  rcases hreact : p.react s.app k none 0 with ⟨app, _ | r⟩
  · rw [absorb_called hreact, hrequests]
    exact ⟨2, by omega, ([], .idle), .finished .idle (hended app none) (by simp) (by simp), by simp [hmarks]⟩
  · rw [absorb_called hreact, hrequests]
    exact ⟨3, by omega, ([], .fatal), .fatal r (hended app (some r)) hname rfl, by simp [hmarks]⟩

/-- The callback that was told of the end of the stream reads again. -/
theorem eofAsking_goes {s : Session κ σ} {r : Request κ} (h : Ended s) (hname : s.reader.name = .eof)
    (hbuffer : s.reader.buffer = none) (hrequests : s.requests = [some r]) :
    Goes p (s.reader.marks ++ [.called r.callback none 0],
        if (p.react s.app r.callback none 0).2.isSome then .fatal else .idle) 4 (s.step p .move) := by
  have hreturns : s.reader.returns = [.leaving] := by simpa [hrequests] using h.returns
  have hstep : s.reader.step (.commenceRead r) = .ok { s.reader with
      name := .eofAlerted, callback := none, buffer := none, satisfied := 0,
      returns := [.leaving, .leaving],
      marks := s.reader.marks ++ [.called r.callback none 0] } := by
    simp only [Reader.step, h.needed, Reader.commenceRead, hname, Reader.callReadCallback, hbuffer,
      Reader.enter, hreturns]
  simp only [step, h.needed, hrequests, Option.isSome_none, Bool.false_eq_true, if_false]
  rw [advance_called (s := { s with requests := [none] }) hstep rfl]
  exact alerted_goes (s := ⟨_, s.app, [none], s.stream⟩) h.needed h.watcher rfl rfl rfl rfl

/-- It was told twice, and reads on. -/
theorem fatal_goes {s : Session κ σ} {r : Request κ} (h : Ended s) (hname : s.reader.name = .eofAlerted)
    (hrequests : s.requests = [some r, none]) :
    Goes p (s.reader.marks ++ [], .fatal) 3 (s.step p .move) := by
  have hstep : s.reader.step (.commenceRead r) = .error ⟨.illegalState, s.reader.marks⟩ := by
    simp only [Reader.step, h.needed, Reader.commenceRead, hname]
    rfl
  simp only [step, h.needed, hrequests, Option.isSome_none, Bool.false_eq_true, if_false, advance, hstep]
  exact ⟨by rw [List.append_nil], rfl⟩

/-- A callback returns after the end. -/
theorem over_goes {s : Session κ σ} {ending : Ending} {requests : List (Option (Request κ))}
    (h : Ended s) (hending : ending ≠ .fatal) (hnone : ∀ q ∈ s.requests, q = none)
    (hrequests : s.requests = none :: requests) :
    Goes p (s.reader.marks ++ [], ending) s.requests.length (s.step p .move) := by
  have hreturns : s.reader.returns = .leaving :: List.replicate requests.length .leaving := by
    rw [h.returns, hrequests]
    rfl
  have hstep : s.reader.step .callbackReturns =
      .ok { s.reader with returns := List.replicate requests.length .leaving } := by
    simp only [Reader.step, h.needed, hreturns, Reader.resume]
  simp only [step, h.needed, hrequests, Option.isSome_none, Bool.false_eq_true, if_false]
  rw [advance_quiet (s := { s with requests := requests }) hstep rfl]
  exact ⟨requests.length, Nat.lt_succ_self _, _, .finished ending ⟨h.needed, h.watcher, rfl, h.name⟩ hending
    fun q hq => hnone q (by simp [hrequests, hq]), rfl⟩

/-! ## Every step -/

/-- What a step does: it keeps the simulation, and if it is the step that comes next, it comes closer to
rest. -/
def Keeps (p : Program κ σ) (total : List (ReadMark κ) × Ending) (μ : Nat) (s : Session κ σ)
    (i : SessionInput) : Prop :=
  Ends (fun s' => ∃ μ', Sim p total s' μ' ∧ (¬ s.AtRest → (∃ n, i = s.next n) → μ' < μ)) (Fatal total)
    (s.step p i)

theorem Goes.keeps {total : List (ReadMark κ) × Ending} {μ : Nat} {s : Session κ σ} {i : SessionInput}
    (h : Goes p total μ (s.step p i)) : Keeps p total μ s i := by
  refine h.mono ?_ fun _ he => he
  rintro s' ⟨μ', hμ, hs⟩
  exact ⟨μ', hs, fun _ _ => hμ⟩

/-- A step that does nothing. -/
theorem Sim.keeps {total : List (ReadMark κ) × Ending} {μ : Nat} {s : Session κ σ} {i : SessionInput}
    (h : Sim p total s μ) (hstep : s.step p i = .ok s) (hi : s.AtRest ∨ ∀ n, i ≠ s.next n) :
    Keeps p total μ s i := by
  rw [Keeps, hstep]
  refine ⟨μ, h, fun hrest hnext => ?_⟩
  obtain ⟨n, hn⟩ := hnext
  rcases hi with hi | hi
  · exact absurd hi hrest
  · exact absurd hn (hi n)

theorem step_event_none {s : Session κ σ}
    (h : ¬ (s.reader.needed = none ∧ s.reader.returns = [] ∧ s.reader.watcher = some true)) :
    s.step p .event = .ok s := by
  have hstep : s.reader.step .event = .ok s.reader := by
    unfold Reader.step
    split
    · rfl
    · next hneeded =>
      dsimp only
      rw [if_neg fun hd => h ⟨hneeded, hd⟩]
  exact advance_quiet hstep rfl

theorem step_readv_none {s : Session κ σ} (h : s.reader.needed = none) (n : Option Nat) :
    s.step p (.readv n) = .ok s := by
  simp only [step, h]

/-- The phases in which `readv` is not being called and a callback runs. -/
theorem calling_keeps {total : List (ReadMark κ) × Ending} {μ : Nat} {s : Session κ σ}
    (h : Sim p total s μ) (hneeded : s.reader.needed = none) (hreturns : s.reader.returns ≠ [])
    (hrequests : s.requests ≠ []) (hmove : Goes p total μ (s.step p .move)) (i : SessionInput) :
    Keeps p total μ s i := by
  have hnext : ∀ n, s.next n = .move := by
    intro n
    simp [next, hneeded, hrequests]
  cases i with
  | event => exact h.keeps (step_event_none fun he => hreturns he.2.1) (.inr fun n => by simp [hnext])
  | readv n => exact h.keeps (step_readv_none hneeded n) (.inr fun n => by simp [hnext])
  | move => exact hmove.keeps

/-- A session at rest stays as it is. -/
theorem rest_keeps {total : List (ReadMark κ) × Ending} {μ : Nat} {s : Session κ σ}
    (h : Sim p total s μ) (hrest : s.AtRest) (hwatcher : s.reader.watcher ≠ some true)
    (hrequests : s.requests = []) (i : SessionInput) : Keeps p total μ s i := by
  cases i with
  | event => exact h.keeps (step_event_none fun he => hwatcher he.2.2) (.inl hrest)
  | readv n => exact h.keeps (step_readv_none hrest.1 n) (.inl hrest)
  | move => exact h.keeps (by simp [step, hrest.1, hrequests]) (.inl hrest)

theorem waiting_keeps {total : List (ReadMark κ) × Ending} {s : Session κ σ} {r : Request κ}
    {got : List UInt8} (hr : Reading s r got) (hfits : p.FitsAlong s.app r (got ++ s.stream))
    (hwatcher : s.reader.watcher = some true)
    (hneeded : s.reader.needed = none)
    (htotal : total = (s.reader.marks ++ (p.ideal s.app r (got ++ s.stream)).1,
      (p.ideal s.app r (got ++ s.stream)).2)) (i : SessionInput) :
    Keeps p total (8 * s.stream.length + 13) s i := by
  have hsim : Sim p total s (8 * s.stream.length + 13) := ⟨_, .waiting r got hr hfits hwatcher hneeded, htotal⟩
  have hnext : ∀ n, s.next n = .event := by
    intro n
    simp [next, hneeded, hr.requests]
  cases i with
  | event =>
    have hleft := hr.left
    have hstep : s.reader.step .event = .ok { s.reader with
        watcher := some false, needed := some (r.required - got.length, .completing) } := by
      simp only [Reader.step, hneeded, hr.returns, hwatcher, and_self, if_true, Reader.continueRead, hr.name,
        Reader.setWatcher]
      change Reader.readWhatIsBuffered _ _ = _
      rw [Reader.readWhatIsBuffered, if_pos (by simp only [hr.required, hr.satisfied]; omega),
        Reader.readLoop, if_pos (by simp only [hr.required, hr.satisfied]; omega)]
      simp only [hr.required, hr.satisfied]
    refine Goes.keeps ?_
    change Goes _ _ _ (s.advance p .event)
    rw [advance_quiet hstep rfl]
    exact ⟨8 * s.stream.length + 12, by omega, _, .reading r got .completing
      ⟨hr.name, hr.callback, hr.buffer, hr.required, hr.satisfied, hr.left, hr.returns, hr.requests⟩
      hfits rfl rfl (by simp), htotal⟩
  | readv n => exact hsim.keeps (step_readv_none hneeded n) (.inr fun n => by simp [hnext])
  | move =>
    exact hsim.keeps (by simp [step, hneeded, hr.requests]) (.inr fun n => by simp [hnext])

theorem reading_keeps {total : List (ReadMark κ) × Ending} {s : Session κ σ} {r : Request κ}
    {got : List UInt8} {after : Return} (hr : Reading s r got)
    (hfits : p.FitsAlong s.app r (got ++ s.stream)) (hwatcher : s.reader.watcher = some false)
    (hneeded : s.reader.needed = some (r.required - got.length, after)) (hafter : after ≠ .leaving)
    (htotal : total = (s.reader.marks ++ (p.ideal s.app r (got ++ s.stream)).1,
      (p.ideal s.app r (got ++ s.stream)).2)) (i : SessionInput) :
    Keeps p total (8 * s.stream.length + 12) s i := by
  have hsim : Sim p total s (8 * s.stream.length + 12) :=
    ⟨_, .reading r got after hr hfits hwatcher hneeded hafter, htotal⟩
  have hnext : ∀ n, s.next n = .readv (some n) := by
    intro n
    simp [next, hneeded]
  have hleft := hr.left
  cases i with
  | event => exact hsim.keeps (step_event_none fun he => by simp [hneeded] at he) (.inr fun n => by simp [hnext])
  | move => exact hsim.keeps (by simp [step, hneeded]) (.inr fun n => by simp [hnext])
  | readv n =>
    cases n with
    | none =>
      have hstep : s.reader.step (.readv .again) = .ok { s.reader with
          readvs := s.reader.readvs + 1, needed := none, watcher := some true } := by
        simp only [Reader.step, hneeded]
        rw [Reader.readvDone_eq hr.buffer (by omega) (by
          have := hfits.fits.room
          simp only [Buffer.append]
          omega)]
        simp only [Reader.setWatcher, hwatcher]
      have hsession : s.step p (.readv none) = .ok { s with reader := { s.reader with
          readvs := s.reader.readvs + 1, needed := none, watcher := some true } } := by
        simp only [step, hneeded, delivers]
        exact advance_quiet hstep rfl
      rw [Keeps, hsession]
      refine ⟨_, ⟨_, .waiting r got ⟨hr.name, hr.callback, hr.buffer, hr.required, hr.satisfied, hr.left,
        hr.returns, hr.requests⟩ hfits rfl rfl, htotal⟩, fun _ hn => ?_⟩
      obtain ⟨n, hn⟩ := hn
      simp [hnext] at hn
    | some n =>
      refine Goes.keeps ?_
      rw [htotal]
      simp only [step, hneeded]
      by_cases hstream : s.stream = []
      · have heof := readEof_goes (p := p) hr hfits hwatcher hneeded hstream
        rw [hstream] at heof ⊢
        exact heof
      · have hpos : 0 < r.required - got.length := by omega
        obtain ⟨first, more, rest, hdelivers, htake, hsplit⟩ := delivers_some (n := n) hstream hpos
        rw [hdelivers]
        exact readBytes_goes hr hfits hwatcher hneeded hafter htake hsplit

theorem step_sim {total : List (ReadMark κ) × Ending} {μ : Nat} {s : Session κ σ}
    (h : Sim p total s μ) (i : SessionInput) : Keeps p total μ s i := by
  obtain ⟨rest, hphase, htotal⟩ := h
  cases hphase with
  | waiting r got hr hfits hwatcher hneeded => exact waiting_keeps hr hfits hwatcher hneeded htotal i
  | reading r got after hr hfits hwatcher hneeded hafter =>
    exact reading_keeps hr hfits hwatcher hneeded hafter htotal i
  | asking r hc fits hcallback hbuffer hrequests =>
    obtain ⟨after, hreturns, -⟩ := hc.returns
    exact calling_keeps ⟨_, .asking r hc fits hcallback hbuffer hrequests, htotal⟩ hc.needed
      (by simp [hreturns]) (by simp [hrequests])
      (htotal ▸ asking_goes hc fits hcallback hbuffer hrequests) i
  | asked r hc fits hcallback hbuffer hrequired hsatisfied hrequests =>
    obtain ⟨after, hreturns, -⟩ := hc.returns
    exact calling_keeps ⟨_, .asked r hc fits hcallback hbuffer hrequired hsatisfied hrequests, htotal⟩
      hc.needed (by simp [hreturns]) (by simp [hrequests])
      (htotal ▸ asked_goes hc fits hcallback hbuffer hrequired hsatisfied hrequests) i
  | done hc hcallback hbuffer hrequests =>
    obtain ⟨after, hreturns, -⟩ := hc.returns
    exact calling_keeps ⟨_, .done hc hcallback hbuffer hrequests, htotal⟩ hc.needed
      (by simp [hreturns]) (by simp [hrequests]) (htotal ▸ done_goes hc hbuffer hrequests) i
  | idle hname hneeded hwatcher hreturns hrequests =>
    exact rest_keeps ⟨_, .idle hname hneeded hwatcher hreturns hrequests, htotal⟩
      ⟨hneeded, hreturns, by simp [hname]⟩ (by simp [hwatcher]) hrequests i
  | eof r he hname hbuffer hrequests =>
    exact calling_keeps ⟨_, .eof r he hname hbuffer hrequests, htotal⟩ he.needed
      (by simp [he.returns, hrequests]) (by simp [hrequests])
      (htotal ▸ eofAsking_goes he hname hbuffer hrequests) i
  | fatal r he hname hrequests =>
    exact calling_keeps ⟨_, .fatal r he hname hrequests, htotal⟩ he.needed
      (by simp [he.returns, hrequests]) (by simp [hrequests]) (htotal ▸ fatal_goes he hname hrequests) i
  | finished ending he hending hnone =>
    have hsim : Sim p total s s.requests.length := ⟨_, .finished ending he hending hnone, htotal⟩
    cases hrequests : s.requests with
    | nil =>
      rw [hrequests] at hsim
      exact rest_keeps hsim ⟨he.needed, by simp [he.returns, hrequests], he.name⟩ he.watcher hrequests i
    | cons q requests =>
      obtain rfl : q = none := hnone q (by simp [hrequests])
      have hgoes := over_goes (p := p) he hending hnone hrequests
      rw [← htotal] at hgoes
      rw [← hrequests]
      exact calling_keeps hsim he.needed (by simp [he.returns, hrequests]) (by simp [hrequests]) hgoes i

/-! ## Every run -/

theorem start_sim {a : σ} {r : Request κ} {stream : List UInt8} (hr : p.FitsAlong a r stream) :
    Ends (fun s => ∃ μ, Sim p (p.ideal a r stream) s μ) (Fatal (p.ideal a r stream))
      (start p a r stream) := by
  have hpos := hr.fits.required_pos
  have hstep : Reader.step ({ Reader.create with watcher := some false, name := .enabled } : Reader κ)
      (.commenceRead r) = .ok { (Reader.create : Reader κ) with
        watcher := some false, name := .reading, callback := some r.callback, buffer := some r.buffer,
        required := r.required, needed := some (r.required, .completing) } := by
    simp only [Reader.step, Reader.create, Reader.commenceRead, Reader.queueReadOperation,
      Reader.readWhatIsBuffered, Reader.readLoop, Nat.sub_zero, hpos, if_true]
  have hstart : start p a r stream = advance p ⟨{ Reader.create with watcher := some false, name := .enabled },
      a, [], stream⟩ (.commenceRead r) := rfl
  rw [hstart, advance_quiet (s := ⟨_, a, [], stream⟩) hstep rfl]
  refine ⟨_, p.ideal a r stream, .reading r [] .completing ⟨rfl, rfl, ?_, rfl, rfl, hpos, rfl, rfl⟩ hr rfl
    rfl (by simp), rfl⟩
  simp only [Buffer.append_nil]

theorem Sim.isPrefix {total : List (ReadMark κ) × Ending} {μ : Nat} {s : Session κ σ}
    (h : Sim p total s μ) : s.reader.marks <+: total.1 := by
  obtain ⟨rest, -, htotal⟩ := h
  exact ⟨rest.1, by rw [htotal]⟩

theorem Sim.atRest {total : List (ReadMark κ) × Ending} {μ : Nat} {s : Session κ σ}
    (h : Sim p total s μ) (hrest : s.AtRest) : s.reader.marks = total.1 ∧ total.2 ≠ .fatal := by
  obtain ⟨rest, hphase, htotal⟩ := h
  cases hphase with
  | waiting r got hr => exact absurd hr.name hrest.2.2
  | reading r got after hr => exact absurd hr.name hrest.2.2
  | asking r hc => exact absurd hc.name hrest.2.2
  | asked r hc => exact absurd hc.name hrest.2.2
  | done hc => exact absurd hc.name hrest.2.2
  | idle => simp [htotal]
  | eof r he hname hbuffer hrequests => simp [he.returns, hrequests, AtRest] at hrest
  | fatal r he hname hrequests => simp [he.returns, hrequests, AtRest] at hrest
  | finished ending he hending =>
    refine ⟨by simp [htotal], ?_⟩
    rw [htotal]
    exact hending

/-- However the rest of the stream is cut, the session comes to rest. -/
theorem Sim.drive {total : List (ReadMark κ) × Ending} : ∀ (μ : Nat) {s : Session κ σ},
    Sim p total s μ → ∀ sizes, ∃ k, Ends AtRest (Fatal total) (s.drive p sizes k) := by
  intro μ
  induction μ using Nat.strongRecOn with
  | ind μ ih =>
    intro s h sizes
    by_cases hrest : s.AtRest
    · exact ⟨0, hrest⟩
    · have hstep := step_sim h (s.next (sizes 0))
      unfold Keeps at hstep
      cases h1 : s.step p (s.next (sizes 0)) with
      | error e =>
        refine ⟨1, ?_⟩
        rw [h1] at hstep
        rw [Session.drive, h1]
        exact hstep
      | ok s1 =>
        rw [h1] at hstep
        obtain ⟨μ1, hs1, hμ1⟩ := hstep
        obtain ⟨k, hk⟩ := ih μ1 (hμ1 hrest ⟨_, rfl⟩) hs1 fun j => sizes (j + 1)
        refine ⟨k + 1, ?_⟩
        rw [Session.drive, h1]
        exact hk

end Session

/-- Every run keeps the simulation. -/
theorem Session.play_sim {a : σ} {r : Request κ} {stream : List UInt8} (hr : p.FitsAlong a r stream)
    (is : List SessionInput) :
    Ends (fun s => ∃ μ, Session.Sim p (p.ideal a r stream) s μ) (Session.Fatal (p.ideal a r stream))
      (Session.play p a r stream is) := by
  refine Ends.bind (Session.start_sim hr) ?_
  intro s hs
  refine run_ends (c := fun _ _ => True) ?_ is s hs (RunMeets.true is s)
  rintro s i ⟨μ, hμ⟩ -
  refine (Session.step_sim hμ i).mono ?_ fun _ he => he
  rintro s' ⟨μ', hs', -⟩
  exact ⟨μ', hs'⟩

/-- **The reader does not depend on how the stream is cut**: at every state of every run, whatever
pieces `readv` delivers and whatever events come, the callbacks that were called are the first of those
that delivery in one piece makes; they are all of them when the reader is at rest, and however the rest
of the stream is cut it comes to rest. The process ends only if the application reads on after it was
told twice that the stream has ended. -/
theorem reader_fragmentation (p : Program κ σ) (hp : p.Fits) (a : σ) (r : Request κ) (hr : r.Fits)
    (stream : List UInt8) (is : List SessionInput) :
    Ends
      (fun s => s.reader.marks <+: (p.ideal a r stream).1 ∧
        (s.AtRest → s.reader.marks = (p.ideal a r stream).1 ∧ (p.ideal a r stream).2 ≠ .fatal) ∧
        ∀ sizes, ∃ k, Ends Session.AtRest (Session.Fatal (p.ideal a r stream)) (s.drive p sizes k))
      (Session.Fatal (p.ideal a r stream))
      (Session.play p a r stream is) := by
  have hfits : p.FitsAlong a r stream := hp.along stream.length stream (Nat.le_refl _) a r hr
  refine (Session.play_sim hfits is).mono ?_ fun _ he => he
  rintro s ⟨μ, hμ⟩
  exact ⟨hμ.isPrefix, hμ.atRest, hμ.drive μ⟩

/-- A read of one byte into an empty buffer. -/
def readByte : Request Unit := ⟨Buffer.received [], 1, ()⟩

theorem readByte_fits : readByte.Fits := ⟨by decide, by decide⟩

/-- It reads byte by byte; `stops` is whether it does not read on at the end of the stream. -/
def byteByByte (stops : Bool) : Program Unit Unit where
  react _ _ _ n := ((), if n = 0 && stops then none else some readByte)

theorem byteByByte_fits (stops : Bool) : (byteByByte stops).Fits := by
  intro a k b n r hr
  unfold byteByByte at hr
  dsimp only at hr
  split at hr
  · cases hr
  · cases hr
    exact readByte_fits

/-- Two bytes that come one by one, with an event between them. -/
def twoPieces : List SessionInput :=
  [.readv (some 0), .move, .move, .readv none, .event, .readv (some 7), .move, .move, .readv (some 0), .move]

theorem reader_fragmentation_two :
    (Session.play (byteByByte true) () readByte [1, 2] twoPieces).toOption.map
        (fun s => (s.reader.name, s.reader.marks.length)) = some (.eof, 3) ∧
    Ends
      (fun s => s.reader.marks <+: ((byteByByte true).ideal () readByte [1, 2]).1 ∧
        (s.AtRest → s.reader.marks = ((byteByByte true).ideal () readByte [1, 2]).1 ∧
          ((byteByByte true).ideal () readByte [1, 2]).2 ≠ .fatal) ∧
        ∀ sizes, ∃ k, Ends Session.AtRest (Session.Fatal ((byteByByte true).ideal () readByte [1, 2]))
          (s.drive (byteByByte true) sizes k))
      (Session.Fatal ((byteByByte true).ideal () readByte [1, 2]))
      (Session.play (byteByByte true) () readByte [1, 2] twoPieces) :=
  ⟨by decide +kernel, reader_fragmentation (byteByByte true) (byteByByte_fits true) () readByte readByte_fits
    [1, 2] twoPieces⟩

/-- An application that always reads on: the third read at the end of the stream ends the process. -/
theorem third_read_at_eof_is_fatal :
    (match Session.play (byteByByte false) () readByte [] [.readv (some 0), .move, .move] with
      | .ok _ => none
      | .error e => some (e.fault, e.marks.length)) = some (.illegalState, 2) := by
  decide +kernel

end Amqp.Stream
