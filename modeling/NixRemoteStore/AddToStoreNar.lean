import NixRemoteStore.Frames
import NixRemoteStore.Handles

/-! # Adding a store object from its archive

What `addToStore(info, source, ...)` sends after its request: the framed archive from minor 23
on, before that exactly the chunks the stderr loop took from the source, one string each. -/

namespace NixRemoteStore

open Wire

section Sent
variable (st₀ : ConnState) {α β : Type}

/-- What the client wrote since `st₀` while it answered the daemon's reads: the chunks it took
from the source, each as one string, in the order it took them. -/
def SentChunks (st : ConnState) : Prop :=
  ∃ cs : List Bytes, st.fx.sourceChunks = st₀.fx.sourceChunks ++ cs ∧
    st.conn.to_ = st₀.conn.to_ ++ (cs.map writeString).flatten ∧ ∀ c ∈ cs, Codec.string.valid c

theorem SentChunks.refl : SentChunks st₀ st₀ := ⟨[], by simp, by simp, by simp⟩

theorem SentChunks.congr {st st' : ConnState} (h : SentChunks st₀ st)
    (hs : st'.fx.sourceChunks = st.fx.sourceChunks) (ht : st'.conn.to_ = st.conn.to_) :
    SentChunks st₀ st' := by
  rwa [SentChunks, hs, ht]

theorem sent_readFrom (r : Reader α) : Preserves (SentChunks st₀) (readFrom r) := by
  intro st h
  unfold readFrom
  split <;> exact h.congr st₀ rfl rfl

theorem sent_log (e : LogEvent) : Preserves (SentChunks st₀) (log e) :=
  fun _ h => h.congr st₀ rfl rfl

theorem sent_flush : Preserves (SentChunks st₀) flush :=
  fun _ h => h.congr st₀ rfl rfl

theorem sent_callSink (sink : Sink) (s : Bytes) : Preserves (SentChunks st₀) (callSink sink s) := by
  intro st h
  unfold callSink
  split <;> exact h.congr st₀ rfl rfl

theorem sent_readFrom_bind (c : Codec α) {f : α → ConnM β}
    (hf : ∀ a, c.valid a → Preserves (SentChunks st₀) (f a)) :
    Preserves (SentChunks st₀) (readFrom c.decode >>= f) := by
  intro st h
  have h₁ := sent_readFrom st₀ c.decode st h
  rw [run_bind]
  cases hr : readFrom c.decode st with
  | ok a st' =>
    rw [hr] at h₁
    exact hf a (c.decode_sound (readFrom_ok hr).1).1 st' h₁
  | error e st' => rw [hr] at h₁; exact h₁

theorem sent_answer (source : Source) {len : Nat} (hlen : Codec.u64.valid len) {k : ConnM α}
    (hk : Preserves (SentChunks st₀) k) :
    Preserves (SentChunks st₀) (callSource source len >>= fun chunk => writeTo (writeString chunk) >>= fun _ => k) := by
  rintro st ⟨cs, hsrc, hto, hv⟩
  rw [run_bind]
  unfold callSource
  cases hr : source.read st.fx.sourceChunks len with
  | error e => exact ⟨cs, hsrc, hto, hv⟩
  | ok b =>
    have hb : Codec.string.valid b := (source.read_le _ _ _ hr).trans hlen
    refine hk _ ⟨cs ++ [b], by simp [hsrc], by simp [writeTo, hto], fun c hc => ?_⟩
    rcases List.mem_append.mp hc with hc | hc
    exacts [hv c hc, List.mem_singleton.mp hc ▸ hb]

variable {P : Protocol} {sink : Option Sink} {source : Option Source}

theorem processStderrStep_sent : Preserves (SentChunks st₀) (processStderrStep P sink source) := by
  unfold processStderrStep
  repeat' first
    | with_reducible refine preserves_get_bind fun _ => ?_
    | with_reducible refine sent_readFrom_bind st₀ Codec.u64 fun _ _ => ?_
    | with_reducible refine sent_answer st₀ _ (by assumption) ?_
    | with_reducible refine preserves_bind ?_ fun _ => ?_
    | with_reducible refine preserves_ite ?_ ?_
    | with_reducible exact preserves_pure _
    | with_reducible exact preserves_throw _
    | with_reducible exact sent_log st₀ _
    | with_reducible exact sent_flush st₀
    | with_reducible exact sent_callSink st₀ _ _
    | with_reducible exact sent_readFrom st₀ _
    | split

theorem processStderrLoop_sent : ∀ fuel, Preserves (SentChunks st₀) (processStderrLoop P sink source fuel)
  | 0 => preserves_throw _
  | fuel + 1 => preserves_bind (processStderrStep_sent st₀) fun
    | .more => processStderrLoop_sent fuel
    | .done _ => preserves_pure _

/-- Over every run of the stderr loop, returning or raising, the client sends nothing but the
chunks it takes from the source, each as one string, in order. -/
theorem processStderr_sent (doFlush : Bool) :
    Preserves (SentChunks st₀) (processStderr P sink source doFlush) := by
  unfold processStderr
  repeat' first
    | with_reducible refine preserves_get_bind fun _ => ?_
    | with_reducible refine preserves_bind ?_ fun _ => ?_
    | with_reducible refine preserves_ite ?_ ?_
    | with_reducible exact preserves_pure _
    | with_reducible exact sent_flush st₀
    | exact processStderrLoop_sent st₀ _

end Sent

def HandleState.connState (hs : HandleState) : ConnState := ⟨hs.conn, hs.store.fx⟩

/-- `ConnectionHandle::processStderr` sends what the loop sends; raising the daemon's error
sends nothing. -/
theorem handleProcessStderr_sent (cfg : Config) (st₀ : ConnState) (sink : Option Sink)
    (source : Option Source) (doFlush : Bool) :
    Preserves (fun hs : HandleState => SentChunks st₀ hs.connState)
      (handleProcessStderr cfg sink source doFlush) := by
  intro hs h
  have h₁ := @processStderr_sent st₀ cfg.P sink source doFlush hs.connState h
  unfold handleProcessStderr onConn HandleState.connState at *
  rw [run_bind]
  cases hr : processStderr cfg.P sink source doFlush ⟨hs.conn, hs.store.fx⟩ with
  | ok o cs =>
    rw [hr] at h₁
    cases o <;> exact h₁
  | error e cs => rw [hr] at h₁; exact h₁

section Add
variable (cfg : Config)

/-- Whatever the daemon and the caller's code do, `addToStore` writes its request, then the
archive, and nothing else. From minor 23 on, the daemon's frame reader gets back exactly the
archive's data whenever the call returns, and otherwise either that or an aborted stream;
before, the archive is the chunks the stderr loop took from the source, one string each, in
the order it took them, and the daemon, reading one string per request, gets back exactly
those chunks. -/
theorem addToStore_sends_request_then_archive (info : ValidPathInfo) (nar : List ProducerStep)
    (hv : ChunksFit nar) (source : Source) (repair checkSigs : Bool) (hs : HandleState) :
    ∃ archive, (resultState (addToStoreHeld cfg info nar source repair checkSigs hs)).conn.to_ =
        hs.conn.to_ ++ writeNum (cfg.P.opCode .addToStoreNar) ++ info.request repair checkSigs ++
          archive ∧
      (23 ≤ getProtocolMinor hs.conn.daemonVersion →
        ((∀ rest, readFrames (archive ++ rest) = .ok (chunkData nar) rest) ∨
          ∃ pre, pre <+: nar ∧ archive = frames pre ∧ readFrames archive = .error .eof []) ∧
        ∀ hs', addToStoreHeld cfg info nar source repair checkSigs hs = .ok () hs' →
          ∀ rest, readFrames (archive ++ rest) = .ok (chunkData nar) rest) ∧
      (getProtocolMinor hs.conn.daemonVersion < 23 →
        ∃ cs, (resultState (addToStoreHeld cfg info nar source repair checkSigs hs)).store.fx.sourceChunks =
            hs.store.fx.sourceChunks ++ cs ∧
          archive = (cs.map writeString).flatten ∧
          ∀ rest, Codec.string.decodeN cs.length (archive ++ rest) = .ok cs rest) := by
  let hs₁ : HandleState := { hs with conn := { hs.conn with
    to_ := hs.conn.to_ ++ (writeNum (cfg.P.opCode .addToStoreNar) ++ info.request repair checkSigs) } }
  have hrun : addToStoreHeld cfg info nar source repair checkSigs hs =
      (if 23 ≤ getProtocolMinor hs.conn.daemonVersion then withFramedSink cfg nar
        else handleProcessStderr cfg none (some source) true) hs₁ := rfl
  by_cases hmin : 23 ≤ getProtocolMinor hs.conn.daemonVersion
  · -- the framed stream
    rw [if_pos hmin] at hrun
    obtain ⟨pre, z, hpre, hto, hz, hok⟩ := withFramedSink_to cfg nar hs₁
    refine ⟨frames pre ++ z, by rw [hrun, hto]; simp [hs₁], fun _ => ⟨readFrames_tail hv hpre hz, ?_⟩,
      fun h => absurd hmin (by omega)⟩
    intro hs' h
    obtain ⟨rfl, rfl⟩ := hok hs' (hrun ▸ h)
    exact fun rest => readFramesLoop_frames hv (by simp; omega) rest
  · -- the daemon pulls the archive through the stderr loop
    rw [if_neg hmin] at hrun
    obtain ⟨cs, hsrc, hto, hval⟩ :=
      handleProcessStderr_sent cfg hs₁.connState none (some source) true hs₁ (SentChunks.refl _)
    refine ⟨(cs.map writeString).flatten, ?_, fun h => absurd h hmin,
      fun _ => ⟨cs, by rw [hrun]; exact hsrc, rfl, fun rest => Codec.string.decodeN_encode hval rest⟩⟩
    rw [hrun]
    simpa [hs₁, HandleState.connState] using hto

theorem addToStore_sends_request_then_archive_minor32 :
    ∃ (nar : List ProducerStep) (hs : HandleState), nar = [.chunk (txt "nar")] ∧
      hs = ⟨StoreState.withIdle (Connection.greeted 0x120 []), Connection.greeted 0x120 [], false⟩ ∧
      ChunksFit nar ∧ ∀ (info : ValidPathInfo) (source : Source) (repair checkSigs : Bool),
      ∃ archive, (resultState (addToStoreHeld (Config.scenario [] 1 1000) info nar source repair
          checkSigs hs)).conn.to_ =
          hs.conn.to_ ++ writeNum ((Config.scenario [] 1 1000).P.opCode .addToStoreNar) ++
            info.request repair checkSigs ++ archive ∧
        (23 ≤ getProtocolMinor hs.conn.daemonVersion →
          ((∀ rest, readFrames (archive ++ rest) = .ok (chunkData nar) rest) ∨
            ∃ pre, pre <+: nar ∧ archive = frames pre ∧ readFrames archive = .error .eof []) ∧
          ∀ hs', addToStoreHeld (Config.scenario [] 1 1000) info nar source repair checkSigs hs =
              .ok () hs' →
            ∀ rest, readFrames (archive ++ rest) = .ok (chunkData nar) rest) ∧
        (getProtocolMinor hs.conn.daemonVersion < 23 →
          ∃ cs, (resultState (addToStoreHeld (Config.scenario [] 1 1000) info nar source repair
              checkSigs hs)).store.fx.sourceChunks = hs.store.fx.sourceChunks ++ cs ∧
            archive = (cs.map writeString).flatten ∧
            ∀ rest, Codec.string.decodeN cs.length (archive ++ rest) = .ok cs rest) := by
  have hfit : ChunksFit [.chunk (txt "nar")] := by
    intro d hd
    rw [List.mem_singleton, ProducerStep.chunk.injEq] at hd
    subst hd
    decide
  exact ⟨_, _, rfl, rfl, hfit, fun info source repair checkSigs =>
    addToStore_sends_request_then_archive _ info _ hfit source repair checkSigs _⟩

end Add

end NixRemoteStore
