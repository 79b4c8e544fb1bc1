import NixRemoteStore.Store

/-! # Framed streaming

`ConnectionHandle::withFramedSink` as two threads moved by `framedStep`, the scheduler choosing
while both run: the caller's producer writes frames through `FramedSink` (not in the sources;
§4.2 and §5 of the spec), and the event thread drains the held connection into the slot `ex`. -/

namespace NixRemoteStore

open Wire

inductive ProducerOutcome
  | completed
  | failed (e : Exn)
  | aborted (e : Exn)
  deriving DecidableEq, Repr

/-- The event thread: running with the fuel of its loop, or ended at `LAST` or with the
exception it recorded in `ex`. -/
inductive EventThread
  | running (fuel : Nat)
  | last
  | failed (e : Exn)
  deriving DecidableEq, Repr

namespace EventThread

def ex : EventThread → Option Exn
  | failed e => some e
  | _ => none

def done : EventThread → Bool
  | running _ => false
  | _ => true

def ofResult {σ : Type} : EStateM.Result Exn σ Unit → EventThread
  | .ok () _ => last
  | .error e _ => failed e

end EventThread

/-- Both threads of `withFramedSink` between two moves. -/
structure FramedCfg where
  hs : HandleState
  ev : EventThread
  steps : List ProducerStep
  producer : Option ProducerOutcome
  sched : List Bool

section ReadHalf

/-! The event loop reads only the read half of the connection: run on two connections that
agree on it, a turn of the loop ends alike, and it leaves the write half alone. -/

def SameReadHalf (c₁ c₂ : Connection) : Prop :=
  c₁.from_ = c₂.from_ ∧ c₁.daemonVersion = c₂.daemonVersion ∧
    c₁.endOfFileError = c₂.endOfFileError

theorem SameReadHalf.refl (c : Connection) : SameReadHalf c c := ⟨rfl, rfl, rfl⟩

theorem SameReadHalf.version {c₁ c₂ : Connection} (h : SameReadHalf c₁ c₂) :
    c₁.daemonVersion = c₂.daemonVersion := h.2.1

def EndAlike {α : Type} (st₁ : ConnState) : EStateM.Result Exn ConnState α →
    EStateM.Result Exn ConnState α → Prop
  | .ok a s₁, .ok b s₂ => a = b ∧ SameReadHalf s₁.conn s₂.conn ∧
      s₁.conn.to_ = st₁.conn.to_ ∧ s₁.conn.flushed = st₁.conn.flushed
  | .error e s₁, .error e' s₂ => e = e' ∧ SameReadHalf s₁.conn s₂.conn ∧
      s₁.conn.to_ = st₁.conn.to_ ∧ s₁.conn.flushed = st₁.conn.flushed
  | _, _ => False

def ReadHalf {α : Type} (m : ConnM α) : Prop :=
  ∀ st₁ st₂ : ConnState, SameReadHalf st₁.conn st₂.conn → EndAlike st₁ (m st₁) (m st₂)

variable {α β : Type}

theorem readHalf_pure (a : α) : ReadHalf (pure a : ConnM α) :=
  fun _ _ h => ⟨rfl, h, rfl, rfl⟩

theorem readHalf_throw (e : Exn) : ReadHalf (throw e : ConnM α) :=
  fun _ _ h => ⟨rfl, h, rfl, rfl⟩

theorem EndAlike.restart {α : Type} {st st₁ : ConnState} {r₁ r₂ : EStateM.Result Exn ConnState α}
    (h : EndAlike st r₁ r₂) (hto : st.conn.to_ = st₁.conn.to_)
    (hfl : st.conn.flushed = st₁.conn.flushed) : EndAlike st₁ r₁ r₂ := by
  cases r₁ <;> cases r₂ <;> simp only [EndAlike, ← hto, ← hfl] at h ⊢ <;> exact h

theorem readHalf_bind {m : ConnM α} {f : α → ConnM β} (hm : ReadHalf m)
    (hf : ∀ a, ReadHalf (f a)) : ReadHalf (m >>= f) := by
  intro st₁ st₂ h
  have h₁ := hm st₁ st₂ h
  simp only [run_bind]
  cases hr₁ : m st₁ <;> cases hr₂ : m st₂ <;> rw [hr₁, hr₂] at h₁ <;> simp only [EndAlike] at h₁
  case ok.ok a s₁ b s₂ =>
    obtain ⟨rfl, hs, hto, hfl⟩ := h₁
    exact (hf a s₁ s₂ hs).restart hto hfl
  case error.error e s₁ e' s₂ =>
    obtain ⟨rfl, hs, hto, hfl⟩ := h₁
    exact ⟨rfl, hs, hto, hfl⟩

theorem readHalf_ite {c : Prop} [Decidable c] {x y : ConnM α} (hx : ReadHalf x)
    (hy : ReadHalf y) : ReadHalf (if c then x else y) := by
  split <;> assumption

theorem readHalf_readFrom (r : Reader α) : ReadHalf (readFrom r) := by
  rintro st₁ st₂ ⟨hf, hv, he⟩
  simp only [readFrom, hf]
  split <;> exact ⟨by simp only [he], ⟨rfl, hv, he⟩, rfl, rfl⟩

theorem readHalf_log (e : LogEvent) : ReadHalf (log e) :=
  fun _ _ h => ⟨rfl, h, rfl, rfl⟩

theorem readHalf_get_bind {f : ConnState → ConnM α}
    (hf : ∀ st₁ st₂ : ConnState, SameReadHalf st₁.conn st₂.conn → f st₁ = f st₂)
    (hr : ∀ st, ReadHalf (f st)) : ReadHalf (get >>= f) := by
  intro st₁ st₂ h
  simp only [run_get_bind]
  rw [← hf st₁ st₂ h]
  exact hr st₁ st₁ st₂ h

theorem processStderrStep_readHalf (P : Protocol) : ReadHalf (processStderrStep P none none) := by
  unfold processStderrStep
  repeat' first
    | with_reducible refine readHalf_get_bind (fun st₁ st₂ h => by simp only [h.version]) fun _ => ?_
    | with_reducible refine readHalf_bind ?_ fun _ => ?_
    | with_reducible refine readHalf_ite ?_ ?_
    | exact readHalf_pure _
    | exact readHalf_throw _
    | exact readHalf_log _
    | exact readHalf_readFrom _

end ReadHalf

section Framed
variable (cfg : Config)

/-- One turn of the event loop in the event thread, which runs
`ConnectionHandle::processStderr(nullptr, nullptr, false)` and records what it raises. -/
def eventStep (fuel : Nat) (hs : HandleState) : EventThread × HandleState :=
  match fuel with
  | 0 => (.failed (Exn.fail (txt "no progress")), hs)
  | f + 1 =>
    match onConn (processStderrStep cfg.P none none) hs with
    | .ok .more hs' => (.running f, hs')
    | .ok (.done none) hs' => (.last, hs')
    | .ok (.done (some info)) hs' =>
      (.failed (daemonError cfg hs'.conn.daemonVersion info), { hs' with daemonException := true })
    | .error e hs' => (.failed e, hs')

/-- Modelled from the spec: the frame `len, bytes` that `FramedSink` writes for a chunk. -/
def frame (data : Bytes) : Bytes := writeNum data.length ++ data

/-- Modelled from the spec: one step of the producer through `FramedSink`, which sees the
slot `ex` when it writes a frame. -/
def producerStep (ex : Option Exn) : ProducerStep → HandleState → Option ProducerOutcome × HandleState
  | .chunk data, hs =>
    if data = [] then (none, hs)
    else match ex with
      | some e => (some (.aborted e), hs)
      | none => (none, { hs with conn := { hs.conn with to_ := hs.conn.to_ ++ frame data } })
  | .call m, hs =>
    match m hs.store with
    | .ok () s => (none, { hs with store := s })
    | .error e s => (some (.failed e), { hs with store := s })
  | .raise e, hs => (some (.failed e), hs)

/-- Modelled from the spec: `FramedSink`'s end of a completed stream, the zero frame and a
flush. -/
def endStream (hs : HandleState) : HandleState :=
  let to_ := hs.conn.to_ ++ writeNum 0
  { hs with conn := { hs.conn with to_ := to_, flushed := to_.length } }

namespace FramedCfg

def producerMoves (c : FramedCfg) : FramedCfg :=
  match c.steps with
  | [] => { c with hs := endStream c.hs, producer := some .completed, sched := c.sched.tail }
  | p :: ps =>
    let r := producerStep c.ev.ex p c.hs
    { c with hs := r.2, steps := ps, producer := r.1, sched := c.sched.tail }

def eventMoves (c : FramedCfg) (fuel : Nat) : FramedCfg :=
  let r := eventStep cfg fuel c.hs
  { c with hs := r.2, ev := r.1, sched := c.sched.tail }

end FramedCfg

/-- One move of the two threads: while both run the scheduler chooses, after the producer
is done the caller waits for the event thread. -/
def framedStep (c : FramedCfg) : FramedCfg :=
  match c.producer, c.ev with
  | none, .running f => if c.sched.headD true then c.producerMoves else c.eventMoves cfg f
  | none, _ => c.producerMoves
  | some _, .running f => c.eventMoves cfg f
  | some _, _ => c

namespace FramedCfg

def measure (c : FramedCfg) : Nat :=
  (if c.producer.isNone then c.steps.length + 1 else 0) +
    match c.ev with
    | .running f => f + 1
    | _ => 0

def start (hs : HandleState) (steps : List ProducerStep) : FramedCfg :=
  ⟨{ hs with conn := { hs.conn with flushed := hs.conn.to_.length } },
    .running (hs.conn.from_.length + 1), steps, none, hs.store.sched⟩

/-- What `withFramedSink` does once both threads are done: after a completed producer, the
recorded error is raised if there is one; after a failed producer its exception propagates,
and the `Finally` that joins the event thread logs a recorded error and drops it. -/
def result (c : FramedCfg) : EStateM.Result Exn HandleState Unit :=
  let hs := { c.hs with store := { c.hs.store with sched := c.sched } }
  let ignored : HandleState := match c.ev.ex with
    | some x =>
      let logs := hs.store.fx.logs ++ [.printError (txt "error (ignored): " ++ cfg.what x)]
      { hs with store := { hs.store with fx := { hs.store.fx with logs := logs } } }
    | none => hs
  match c.producer with
  | some .completed =>
    match c.ev.ex with
    | some e => .error e hs
    | none => .ok () hs
  | some (.failed e) => .error e ignored
  | some (.aborted e) => .error e ignored
  | none => .error (Exn.fail (txt "no progress")) hs

end FramedCfg

/-- `ConnectionHandle::withFramedSink(fun)`. -/
def withFramedSink (steps : List ProducerStep) : HandleM Unit := fun hs =>
  let c := FramedCfg.start hs steps
  FramedCfg.result cfg ((framedStep cfg)^[c.measure] c)

def eventMove : EventThread × HandleState → EventThread × HandleState
  | (.running f, hs) => eventStep cfg f hs
  | x => x

theorem eventStep_readHalf {f : Nat} {hs₁ hs₂ : HandleState}
    (h : SameReadHalf hs₁.conn hs₂.conn) :
    (eventStep cfg f hs₁).1 = (eventStep cfg f hs₂).1 ∧
      SameReadHalf (eventStep cfg f hs₁).2.conn (eventStep cfg f hs₂).2.conn ∧
      (eventStep cfg f hs₁).2.conn.to_ = hs₁.conn.to_ ∧
      (eventStep cfg f hs₁).2.conn.flushed = hs₁.conn.flushed := by
  cases f with
  | zero => exact ⟨rfl, h, rfl, rfl⟩
  | succ f =>
    have h₁ := processStderrStep_readHalf cfg.P ⟨hs₁.conn, hs₁.store.fx⟩ ⟨hs₂.conn, hs₂.store.fx⟩ h
    simp only [eventStep, onConn]
    rcases hr₁ : processStderrStep cfg.P none none ⟨hs₁.conn, hs₁.store.fx⟩ with ⟨t₁, s₁⟩ | ⟨e₁, s₁⟩ <;>
    rcases hr₂ : processStderrStep cfg.P none none ⟨hs₂.conn, hs₂.store.fx⟩ with ⟨t₂, s₂⟩ | ⟨e₂, s₂⟩ <;>
    rw [hr₁, hr₂] at h₁ <;> simp only [EndAlike] at h₁
    · obtain ⟨rfl, hs, hto, hfl⟩ := h₁
      rcases t₁ with _ | _ | info
      · exact ⟨rfl, hs, hto, hfl⟩
      · exact ⟨rfl, hs, hto, hfl⟩
      · exact ⟨by simp only [hs.2.1], hs, hto, hfl⟩
    · obtain ⟨rfl, hs, hto, hfl⟩ := h₁
      exact ⟨rfl, hs, hto, hfl⟩

theorem eventMove_iterate_done {ev : EventThread} (hev : ev.done = true) (hs : HandleState)
    (k : Nat) : (eventMove cfg)^[k] (ev, hs) = (ev, hs) := by
  apply Function.iterate_fixed
  cases ev with
  | running f => cases hev
  | _ => rfl

theorem eventMove_iterate_eq {x : EventThread × HandleState} {a b : Nat}
    (ha : ((eventMove cfg)^[a] x).1.done = true) (hb : ((eventMove cfg)^[b] x).1.done = true) :
    ((eventMove cfg)^[a] x).1 = ((eventMove cfg)^[b] x).1 := by
  wlog hab : a ≤ b generalizing a b
  · exact (this hb ha (by omega)).symm
  obtain ⟨j, rfl⟩ := Nat.exists_eq_add_of_le hab
  rw [Nat.add_comm, Function.iterate_add_apply]
  conv_rhs => rw [← @Prod.mk.eta _ _ ((eventMove cfg)^[a] x), eventMove_iterate_done cfg ha]

theorem onConn_bind {α β : Type} (m : ConnM α) (f : α → ConnM β) :
    onConn (m >>= f) = onConn m >>= fun a => onConn (f a) := by
  funext hs
  simp only [onConn, run_bind]
  cases m ⟨hs.conn, hs.store.fx⟩ <;> rfl

theorem eventMove_iterate_loop (n : Nat) (hs : HandleState) :
    ((eventMove cfg)^[n + 1] (.running n, hs)).1 =
      EventThread.ofResult ((onConn (processStderrLoop cfg.P none none n) >>= rethrowDaemon cfg) hs) := by
  induction n generalizing hs with
  | zero => rfl
  | succ n ih =>
    rw [Function.iterate_succ_apply, processStderrLoop, onConn_bind]
    simp only [eventMove, eventStep, run_bind]
    rcases onConn (processStderrStep cfg.P none none) hs with ⟨t, hs'⟩ | ⟨e, hs'⟩
    · rcases t with _ | _ | info
      · exact ih hs'
      · rw [eventMove_iterate_done cfg (show EventThread.last.done = true from rfl)]; rfl
      · rw [eventMove_iterate_done cfg (show (EventThread.failed _).done = true from rfl)]; rfl
    · rw [eventMove_iterate_done cfg (show (EventThread.failed e).done = true from rfl)]; rfl

theorem producerStep_conn (ex : Option Exn) (p : ProducerStep) (hs : HandleState) :
    SameReadHalf (producerStep ex p hs).2.conn hs.conn ∧
      (producerStep ex p hs).2.conn.flushed = hs.conn.flushed ∧
      hs.conn.to_.length ≤ (producerStep ex p hs).2.conn.to_.length := by
  cases p with
  | chunk data =>
    by_cases hd : data = []
    · simp [producerStep, hd, SameReadHalf]
    · cases ex <;> simp [producerStep, hd, SameReadHalf]
  | call m =>
    simp only [producerStep]
    cases m hs.store <;> exact ⟨.refl _, rfl, le_rfl⟩
  | raise e => exact ⟨.refl _, rfl, le_rfl⟩

theorem producerStep_aborted {ex : Option Exn} {p : ProducerStep} {hs : HandleState} {e : Exn}
    (h : (producerStep ex p hs).1 = some (.aborted e)) : ex = some e := by
  cases p with
  | chunk data =>
    by_cases hd : data = []
    · simp [producerStep, hd] at h
    · cases ex <;> simp [producerStep, hd] at h
      rw [h]
  | call m =>
    revert h
    simp only [producerStep]
    cases m hs.store <;> simp
  | raise e => cases h

theorem EventThread.ex_eq_some {ev : EventThread} {e : Exn} (h : ev.ex = some e) :
    ev = .failed e := by
  cases ev <;> simp [EventThread.ex] at h
  rw [h]

namespace FramedCfg

/-- The invariant of a run of the two threads from `c₀`: what was written before the event
thread started stays flushed, the event thread is where it would be on its own after some
of its moves, and an aborted producer saw the error the event thread recorded. -/
structure Inv (c₀ c : FramedCfg) : Prop where
  flushed_ge : c₀.hs.conn.flushed ≤ c.hs.conn.flushed
  flushed_le : c.hs.conn.flushed ≤ c.hs.conn.to_.length
  alone : ∃ k, ((eventMove cfg)^[k] (c₀.ev, c₀.hs)).1 = c.ev ∧
    SameReadHalf ((eventMove cfg)^[k] (c₀.ev, c₀.hs)).2.conn c.hs.conn
  aborted : ∀ e, c.producer = some (.aborted e) → c.ev = .failed e

variable {cfg}

theorem Inv.start (hs : HandleState) (steps : List ProducerStep) :
    Inv cfg (start hs steps) (start hs steps) :=
  ⟨le_rfl, le_rfl, ⟨0, rfl, .refl _⟩, fun _ h => by cases h⟩

theorem Inv.producerMoves {c₀ c : FramedCfg} (h : Inv cfg c₀ c) : Inv cfg c₀ c.producerMoves := by
  obtain ⟨hge, hle, ⟨k, hk, hr⟩, hab⟩ := h
  unfold FramedCfg.producerMoves
  split
  · refine ⟨?_, ?_, ⟨k, hk, hr⟩, fun _ h => by cases h⟩ <;> simp [endStream]
    omega
  next p ps _ =>
    obtain ⟨hs, hfl, hto⟩ := producerStep_conn c.ev.ex p c.hs
    refine ⟨?_, ?_, ⟨k, hk, ?_⟩, fun e he => ?_⟩ <;> dsimp only at *
    · omega
    · omega
    · exact ⟨hr.1.trans hs.1.symm, hr.2.1.trans hs.2.1.symm, hr.2.2.trans hs.2.2.symm⟩
    · exact EventThread.ex_eq_some (producerStep_aborted he)

theorem Inv.eventMoves {c₀ c : FramedCfg} {f : Nat} (h : Inv cfg c₀ c) (hev : c.ev = .running f) :
    Inv cfg c₀ (c.eventMoves cfg f) := by
  obtain ⟨hge, hle, ⟨k, hk, hr⟩, hab⟩ := h
  obtain ⟨h₁, h₂, hto, hfl⟩ := @eventStep_readHalf cfg f _ _ hr
  refine ⟨?_, ?_, ⟨k + 1, ?_, ?_⟩, fun e he => ?_⟩
  · simp only [FramedCfg.eventMoves]
    rw [(@eventStep_readHalf cfg f _ _ (SameReadHalf.refl c.hs.conn)).2.2.2]
    exact hge
  · simp only [FramedCfg.eventMoves]
    rw [(@eventStep_readHalf cfg f _ _ (SameReadHalf.refl c.hs.conn)).2.2.2,
      (@eventStep_readHalf cfg f _ _ (SameReadHalf.refl c.hs.conn)).2.2.1]
    exact hle
  · rw [Function.iterate_succ_apply', ← @Prod.mk.eta _ _ ((eventMove cfg)^[k] _), hk, hev]
    exact h₁
  · rw [Function.iterate_succ_apply', ← @Prod.mk.eta _ _ ((eventMove cfg)^[k] _), hk, hev]
    exact h₂
  · rw [hab e he] at hev
    cases hev

theorem Inv.framedStep {c₀ c : FramedCfg} (h : Inv cfg c₀ c) : Inv cfg c₀ (framedStep cfg c) := by
  unfold NixRemoteStore.framedStep
  split
  next f _ hev =>
    split
    · exact h.producerMoves
    · exact h.eventMoves hev
  next => exact h.producerMoves
  next f _ hev => exact h.eventMoves hev
  next => exact h

theorem Inv.iterate {c₀ c : FramedCfg} (h : Inv cfg c₀ c) (n : Nat) :
    Inv cfg c₀ ((NixRemoteStore.framedStep cfg)^[n] c) := by
  induction n with
  | zero => exact h
  | succ n ih => rw [Function.iterate_succ_apply']; exact ih.framedStep

def Final (c : FramedCfg) : Prop := c.producer.isSome ∧ c.ev.done = true

end FramedCfg

theorem eventStep_running {f g : Nat} {hs : HandleState} (h : (eventStep cfg f hs).1 = .running g) :
    g < f := by
  cases f with
  | zero => cases h
  | succ f =>
    simp only [eventStep] at h
    split at h <;> cases h
    omega

theorem measure_eventMoves {c : FramedCfg} {f : Nat} (hev : c.ev = .running f) :
    (c.eventMoves cfg f).measure < c.measure := by
  have key : (match (eventStep cfg f c.hs).1 with
      | .running g => g + 1
      | _ => 0) < f + 1 := by
    cases h : (eventStep cfg f c.hs).1 with
    | running g => exact Nat.succ_lt_succ (eventStep_running cfg h)
    | _ => simp
  simp only [FramedCfg.measure, FramedCfg.eventMoves, hev]
  omega

theorem measure_producerMoves {c : FramedCfg} (hp : c.producer = none) :
    c.producerMoves.measure < c.measure := by
  have hev : c.producerMoves.ev = c.ev := by
    unfold FramedCfg.producerMoves
    split <;> rfl
  have hlen : (if c.producerMoves.producer.isNone then c.producerMoves.steps.length + 1 else 0) <
      c.steps.length + 1 := by
    cases hs : c.steps with
    | nil => simp [FramedCfg.producerMoves, hs]
    | cons p ps =>
      simp only [FramedCfg.producerMoves, hs, List.length_cons]
      split <;> omega
  simp only [FramedCfg.measure, hev, hp, Option.isNone_none, if_true]
  omega

theorem framedStep_final_or_lt (c : FramedCfg) :
    (c.Final ∧ framedStep cfg c = c) ∨ (framedStep cfg c).measure < c.measure := by
  unfold framedStep
  split
  next f hp hev =>
    split
    · exact .inr (measure_producerMoves hp)
    · exact .inr (measure_eventMoves cfg hev)
  next hp _ => exact .inr (measure_producerMoves hp)
  next f hp hev => exact .inr (measure_eventMoves cfg hev)
  next o hp hev =>
    refine .inl ⟨⟨by simp [hp], ?_⟩, rfl⟩
    cases h : c.ev with
    | running f => exact absurd h (hev f)
    | _ => rfl

theorem framedStep_iterate_final {c : FramedCfg} {n : Nat} (h : c.measure ≤ n) :
    ((framedStep cfg)^[n] c).Final := by
  induction n generalizing c with
  | zero =>
    refine ⟨?_, ?_⟩
    · cases hp : c.producer <;> simp_all [FramedCfg.measure]
    · cases hev : c.ev <;> simp_all [FramedCfg.measure, EventThread.done]
  | succ n ih =>
    rw [Function.iterate_succ_apply]
    rcases framedStep_final_or_lt cfg c with ⟨hf, hfix⟩ | hlt
    · rw [hfix, Function.iterate_fixed hfix]; exact hf
    · exact ih (by omega)

theorem EventThread.ofResult_done {σ : Type} (r : EStateM.Result Exn σ Unit) :
    (EventThread.ofResult r).done = true := by
  rcases r with ⟨⟨⟩, _⟩ | ⟨_, _⟩ <;> rfl

theorem FramedCfg.result_spec {c : FramedCfg} (hfin : c.Final)
    (hab : ∀ e, c.producer = some (.aborted e) → c.ev = .failed e) :
    ((∃ hs', c.result cfg = .ok () hs') ↔ c.producer = some .completed ∧ c.ev = .last) ∧
    (∀ e hs', c.result cfg = .error e hs' →
      (∀ e', c.producer = some (.failed e') → e = e') ∧
      ((∀ e', c.producer ≠ some (.failed e')) → c.ev = .failed e)) := by
  obtain ⟨hp, hd⟩ := hfin
  obtain ⟨o, ho⟩ := Option.isSome_iff_exists.mp hp
  rcases c with ⟨hs, ev, steps, producer, sched⟩
  simp only at ho hd hab ⊢
  subst ho
  cases ev with
  | running f => cases hd
  | last => cases o <;> simp [FramedCfg.result, EventThread.ex] at hab ⊢
  | failed x =>
    cases o <;> simp [FramedCfg.result, EventThread.ex] at hab ⊢
    exact hab

/-- `withFramedSink` over every interleaving of the producer's steps with the event thread's
turns: what was written before the call stays flushed in every configuration of the run;
the call ends once both threads have, the event thread as the event loop alone would; it
returns iff the producer completed and the event loop reached `LAST`; otherwise it raises
one exception, the producer's own if it failed on its own and else the event thread's. -/
theorem withFramedSink_joins_and_raises_once (steps : List ProducerStep) (hs : HandleState) :
    let c₀ := FramedCfg.start hs steps
    let c := (framedStep cfg)^[c₀.measure] c₀
    (∀ n, hs.conn.to_.length ≤ ((framedStep cfg)^[n] c₀).hs.conn.flushed) ∧
    c.producer.isSome ∧
    c.ev = EventThread.ofResult (handleProcessStderr cfg none none false c₀.hs) ∧
    ((∃ hs', withFramedSink cfg steps hs = .ok () hs') ↔
      c.producer = some .completed ∧ c.ev = .last) ∧
    (∀ e hs', withFramedSink cfg steps hs = .error e hs' →
      (∀ e', c.producer = some (.failed e') → e = e') ∧
      ((∀ e', c.producer ≠ some (.failed e')) → c.ev = .failed e)) := by
  intro c₀ c
  have hinv := (@FramedCfg.Inv.start cfg hs steps).iterate
  obtain ⟨hprod, hdone⟩ : c.Final := framedStep_iterate_final cfg le_rfl
  have hev : c.ev = EventThread.ofResult (handleProcessStderr cfg none none false c₀.hs) := by
    obtain ⟨k, hk, -⟩ := (hinv c₀.measure).alone
    have hloop := eventMove_iterate_loop cfg (hs.conn.from_.length + 1) c₀.hs
    have hseq : handleProcessStderr cfg none none false c₀.hs =
        (onConn (processStderrLoop cfg.P none none (hs.conn.from_.length + 1)) >>=
          rethrowDaemon cfg) c₀.hs := by
      simp only [handleProcessStderr, run_bind, onConn, processStderr_eq]
      rfl
    have hx : (c₀.ev, c₀.hs) = (EventThread.running (hs.conn.from_.length + 1), c₀.hs) := rfl
    rw [hx] at hk
    rw [hseq, ← hloop, ← hk]
    exact eventMove_iterate_eq cfg (hk ▸ hdone) (by rw [hloop]; exact EventThread.ofResult_done _)
  exact ⟨fun n => (hinv n).flushed_ge, hprod, hev,
    FramedCfg.result_spec cfg ⟨hprod, hdone⟩ (hinv c₀.measure).aborted⟩

end Framed

end NixRemoteStore
