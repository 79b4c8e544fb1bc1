import NixRemoteStore.FramedSink

/-! # What a framed stream puts on the wire

Over every interleaving, the frames `withFramedSink` writes, read back by the daemon's side
of the stream (§4.2 of the spec): the caller's data from a completed stream, and the end of
the input from an aborted one. -/

namespace NixRemoteStore

open Wire

/-- The bytes a run of producer steps writes when no frame write is refused: a frame for each
non-empty chunk; store calls and raises write nothing. -/
def frames : List ProducerStep → Bytes
  | [] => []
  | .chunk data :: ps => (if data = [] then [] else frame data) ++ frames ps
  | _ :: ps => frames ps

def chunkData : List ProducerStep → Bytes
  | [] => []
  | .chunk data :: ps => data ++ chunkData ps
  | _ :: ps => chunkData ps

@[simp] theorem frames_append (a b : List ProducerStep) : frames (a ++ b) = frames a ++ frames b := by
  induction a with
  | nil => rfl
  | cons p ps ih => cases p <;> simp [frames, ih]

def zeroFrame : Option ProducerOutcome → Bytes
  | some .completed => writeNum 0
  | _ => []

theorem zeroFrame_eq_nil {o : Option ProducerOutcome} (h : o ≠ some .completed) : zeroFrame o = [] := by
  rcases o with _ | _ | _ | _ <;> first | rfl | exact absurd rfl h

/-- The daemon's side of a framed stream (modelled from §4.2 of the spec): a length word, then
that many bytes, until the zero frame. -/
def readFramesLoop : Nat → Reader Bytes
  | 0 => throw (.fail (Exn.fail (txt "no progress")))
  | fuel + 1 => do
    let len ← readNum u64Max
    if len = 0 then pure []
    else do
      let data ← readBytes len
      let rest ← readFramesLoop fuel
      pure (data ++ rest)

def readFrames : Reader Bytes := fun s => readFramesLoop (s.length + 1) s

def ChunksFit (steps : List ProducerStep) : Prop := ∀ d, ProducerStep.chunk d ∈ steps → d.length ≤ u64Max

theorem ChunksFit.tail {p : ProducerStep} {ps : List ProducerStep} (h : ChunksFit (p :: ps)) :
    ChunksFit ps :=
  fun d hd => h d (List.mem_cons_of_mem _ hd)

theorem readFramesLoop_frames : ∀ {steps : List ProducerStep}, ChunksFit steps →
    ∀ {fuel : Nat}, (frames steps).length < fuel → ∀ rest,
      readFramesLoop fuel (frames steps ++ writeNum 0 ++ rest) = .ok (chunkData steps) rest
  | [], _, fuel + 1, _, rest => by
    simp [readFramesLoop, frames, chunkData, readNum_writeNum (Nat.zero_le u64Max) le_rfl]
  | .chunk data :: ps, hv, fuel, hf, rest => by
    by_cases hd : data = []
    · simpa [frames, chunkData, hd] using readFramesLoop_frames hv.tail (by simpa [frames, hd] using hf) rest
    · obtain ⟨fuel, rfl⟩ : ∃ f, fuel = f + 1 := ⟨fuel - 1, by omega⟩
      have hlen : (frames ps).length < fuel := by
        simp only [frames, hd, if_false, frame, List.length_append, writeNum_length] at hf
        omega
      have hne : data.length ≠ 0 := by simpa using hd
      have ih := readFramesLoop_frames hv.tail hlen rest
      rw [List.append_assoc] at ih
      simp only [frames, hd, if_false, frame, chunkData, List.append_assoc]
      simp [readFramesLoop, readNum_writeNum (hv data (List.mem_cons_self _ _)) le_rfl, hne,
        readBytes_append, ih]
  | .call m :: ps, hv, fuel, hf, rest => by
    simpa [frames, chunkData] using readFramesLoop_frames hv.tail (by simpa [frames] using hf) rest
  | .raise e :: ps, hv, fuel, hf, rest => by
    simpa [frames, chunkData] using readFramesLoop_frames hv.tail (by simpa [frames] using hf) rest

theorem readFramesLoop_cut : ∀ {steps : List ProducerStep}, ChunksFit steps →
    ∀ {fuel : Nat}, (frames steps).length < fuel → readFramesLoop fuel (frames steps) = .error .eof []
  | [], _, fuel + 1, _ => by simp [readFramesLoop, frames, readNum, readBytes]
  | .chunk data :: ps, hv, fuel, hf => by
    by_cases hd : data = []
    · simpa [frames, hd] using readFramesLoop_cut hv.tail (by simpa [frames, hd] using hf)
    · obtain ⟨fuel, rfl⟩ : ∃ f, fuel = f + 1 := ⟨fuel - 1, by omega⟩
      have hlen : (frames ps).length < fuel := by
        simp only [frames, hd, if_false, frame, List.length_append, writeNum_length] at hf
        omega
      have hne : data.length ≠ 0 := by simpa using hd
      simp only [frames, hd, if_false, frame, List.append_assoc]
      simp [readFramesLoop, readNum_writeNum (hv data (List.mem_cons_self _ _)) le_rfl, hne,
        readBytes_append, readFramesLoop_cut hv.tail hlen]
  | .call m :: ps, hv, fuel, hf => by
    simpa [frames] using readFramesLoop_cut hv.tail (by simpa [frames] using hf)
  | .raise e :: ps, hv, fuel, hf => by
    simpa [frames] using readFramesLoop_cut hv.tail (by simpa [frames] using hf)

section Writes
variable (cfg : Config)

namespace FramedCfg

/-- The write half after some moves from `c₀`: what was there, then the frames of the steps
the producer has taken; all of its steps and the zero frame once it completed. -/
def Writes (c₀ c : FramedCfg) : Prop :=
  ∃ pre, pre <+: c₀.steps ∧ c.hs.conn.to_ = c₀.hs.conn.to_ ++ frames pre ++ zeroFrame c.producer ∧
    (c.producer = none → c₀.steps = pre ++ c.steps) ∧
    (c.producer = some .completed → pre = c₀.steps)

variable {cfg}

theorem Writes.refl {c : FramedCfg} (hp : c.producer = none) : Writes c c :=
  ⟨[], List.nil_prefix, by simp [hp, frames, zeroFrame], fun _ => rfl, fun h => by simp [hp] at h⟩

theorem producerStep_to (ex : Option Exn) (p : ProducerStep) (hs : HandleState) :
    ((producerStep ex p hs).1 = none ∧ (producerStep ex p hs).2.conn.to_ = hs.conn.to_ ++ frames [p]) ∨
      ((producerStep ex p hs).1 ≠ none ∧ (producerStep ex p hs).1 ≠ some .completed ∧
        (producerStep ex p hs).2.conn.to_ = hs.conn.to_) := by
  cases p with
  | chunk data =>
    by_cases hd : data = []
    · simp [producerStep, hd, frames]
    · cases ex <;> simp [producerStep, hd, frames]
  | call m =>
    simp only [producerStep]
    cases m hs.store <;> simp [frames]
  | raise e => simp [producerStep]

theorem Writes.producerMoves {c₀ c : FramedCfg} (h : Writes c₀ c) (hp : c.producer = none) :
    Writes c₀ c.producerMoves := by
  obtain ⟨pre, hpre, hto, hsteps, -⟩ := h
  have hsteps := hsteps hp
  simp only [hp, zeroFrame, List.append_nil] at hto
  unfold FramedCfg.producerMoves
  split
  next hnil =>
    rw [hnil, List.append_nil] at hsteps
    exact ⟨pre, hpre, by simp [endStream, zeroFrame, hto], (fun h => by cases h), fun _ => hsteps.symm⟩
  next p ps hcons =>
    -- the producer took one more step
    rw [hcons] at hsteps
    rcases producerStep_to c.ev.ex p c.hs with ⟨hnone, hto'⟩ | ⟨hsome, hnc, hto'⟩
    · refine ⟨pre ++ [p], ⟨ps, by simp [hsteps]⟩, ?_, fun _ => by simp [hsteps], fun h => ?_⟩
      · simp [hnone, hto', hto, zeroFrame]
      · simp [hnone] at h
    · exact ⟨pre, hpre, by simp [zeroFrame_eq_nil hnc, hto', hto], fun h => absurd h hsome,
        fun h => absurd h hnc⟩

theorem Writes.eventMoves {c₀ c : FramedCfg} (h : Writes c₀ c) (f : Nat) :
    Writes c₀ (c.eventMoves cfg f) := by
  obtain ⟨pre, hpre, hto, hsteps, hdone⟩ := h
  have hto' := (@eventStep_readHalf cfg f _ _ (SameReadHalf.refl c.hs.conn)).2.2.1
  exact ⟨pre, hpre, by simp only [FramedCfg.eventMoves]; rw [hto', hto], hsteps, hdone⟩

theorem Writes.framedStep {c₀ c : FramedCfg} (h : Writes c₀ c) :
    Writes c₀ (NixRemoteStore.framedStep cfg c) := by
  unfold NixRemoteStore.framedStep
  split
  next f hp _ =>
    split
    · exact h.producerMoves hp
    · exact h.eventMoves f
  next hp _ => exact h.producerMoves hp
  next f _ _ => exact h.eventMoves f
  next => exact h

theorem Writes.iterate {c₀ c : FramedCfg} (h : Writes c₀ c) (n : Nat) :
    Writes c₀ ((NixRemoteStore.framedStep cfg)^[n] c) := by
  induction n with
  | zero => exact h
  | succ n ih => rw [Function.iterate_succ_apply']; exact ih.framedStep

end FramedCfg

theorem FramedCfg.result_conn (c : FramedCfg) : (resultState (c.result cfg)).conn = c.hs.conn := by
  unfold FramedCfg.result
  split <;> (try split) <;> rfl

theorem FramedCfg.result_ok {c : FramedCfg} {hs' : HandleState} (h : c.result cfg = .ok () hs') :
    c.producer = some .completed := by
  cases hp : c.producer with
  | none => simp [FramedCfg.result, hp] at h
  | some o => cases o <;> first | rfl | simp [FramedCfg.result, hp] at h

/-- Over every interleaving: the write half ends with the frames of a prefix of the steps,
then the zero frame exactly when the producer completed; a call that returns completed. -/
theorem withFramedSink_to (steps : List ProducerStep) (hs : HandleState) :
    ∃ pre z, pre <+: steps ∧
      (resultState (withFramedSink cfg steps hs)).conn.to_ = hs.conn.to_ ++ frames pre ++ z ∧
      (z = [] ∨ (pre = steps ∧ z = writeNum 0)) ∧
      (∀ hs', withFramedSink cfg steps hs = .ok () hs' → pre = steps ∧ z = writeNum 0) := by
  let c₀ := FramedCfg.start hs steps
  obtain ⟨pre, hpre, hto, -, hdone⟩ :=
    @FramedCfg.Writes.iterate cfg c₀ c₀ (FramedCfg.Writes.refl rfl) c₀.measure
  refine ⟨pre, _, hpre, (congrArg Connection.to_ (FramedCfg.result_conn cfg _)).trans hto, ?_,
    fun hs' h => ⟨hdone (FramedCfg.result_ok cfg h), by rw [FramedCfg.result_ok cfg h]; rfl⟩⟩
  cases hp : ((framedStep cfg)^[c₀.measure] c₀).producer with
  | some o =>
    cases o
    · exact .inr ⟨hdone hp, rfl⟩
    all_goals exact .inl rfl
  | none => exact .inl rfl

theorem readFrames_tail {steps pre : List ProducerStep} {z : Bytes} (hv : ChunksFit steps)
    (hpre : pre <+: steps) (hz : z = [] ∨ (pre = steps ∧ z = writeNum 0)) :
    (∀ rest, readFrames (frames pre ++ z ++ rest) = .ok (chunkData steps) rest) ∨
      ∃ pre', pre' <+: steps ∧ frames pre ++ z = frames pre' ∧
        readFrames (frames pre ++ z) = .error .eof [] := by
  rcases hz with rfl | ⟨rfl, rfl⟩
  · have hfit : ChunksFit pre := fun d hd => hv d (hpre.subset hd)
    exact .inr ⟨pre, hpre, by simp, by simpa using readFramesLoop_cut hfit (Nat.lt_succ_self _)⟩
  · exact .inl fun rest => readFramesLoop_frames hv (by simp; omega) rest

/-- Over every interleaving of the producer with the event thread, whatever the event
stream and the producer's store calls do: from what the stream appended to the write half,
the daemon reads back exactly the data of the producer's chunks once the producer completed,
which it has whenever the call returns; otherwise what was appended is the frames of a prefix
of the steps without the zero frame, and the daemon runs into the end of the input: an
aborted stream is never taken for a whole one. -/
theorem withFramedSink_daemon_reads_chunks (steps : List ProducerStep) (hv : ChunksFit steps)
    (hs : HandleState) :
    ∃ appended, (resultState (withFramedSink cfg steps hs)).conn.to_ = hs.conn.to_ ++ appended ∧
      ((∀ rest, readFrames (appended ++ rest) = .ok (chunkData steps) rest) ∨
        ∃ pre, pre <+: steps ∧ appended = frames pre ∧ readFrames appended = .error .eof []) ∧
      (∀ hs', withFramedSink cfg steps hs = .ok () hs' →
        ∀ rest, readFrames (appended ++ rest) = .ok (chunkData steps) rest) := by
  obtain ⟨pre, z, hpre, hto, hz, hok⟩ := withFramedSink_to cfg steps hs
  refine ⟨frames pre ++ z, by rw [hto, List.append_assoc], readFrames_tail hv hpre hz, ?_⟩
  intro hs' h
  obtain ⟨rfl, rfl⟩ := hok hs' h
  exact fun rest => readFramesLoop_frames hv (by simp; omega) rest

theorem withFramedSink_daemon_reads_chunks_hello :
    ∃ (steps : List ProducerStep) (hs : HandleState),
      steps = [.chunk (txt "hel"), .chunk [], .chunk (txt "lo")] ∧
      hs = ⟨StoreState.withIdle (Connection.greeted 0x120 []), Connection.greeted 0x120 [], false⟩ ∧
      ChunksFit steps ∧
      ∃ appended, (resultState (withFramedSink (Config.scenario [] 1 1000) steps hs)).conn.to_ =
          hs.conn.to_ ++ appended ∧
        ((∀ rest, readFrames (appended ++ rest) = .ok (chunkData steps) rest) ∨
          ∃ pre, pre <+: steps ∧ appended = frames pre ∧ readFrames appended = .error .eof []) ∧
        (∀ hs', withFramedSink (Config.scenario [] 1 1000) steps hs = .ok () hs' →
          ∀ rest, readFrames (appended ++ rest) = .ok (chunkData steps) rest) := by
  have hfit : ChunksFit [.chunk (txt "hel"), .chunk [], .chunk (txt "lo")] := by
    intro d hd
    simp only [List.mem_cons, ProducerStep.chunk.injEq, List.mem_nil_iff, or_false] at hd
    rcases hd with rfl | rfl | rfl <;> decide
  exact ⟨_, _, rfl, rfl, hfit, withFramedSink_daemon_reads_chunks _ _ hfit _⟩

end Writes

end NixRemoteStore
