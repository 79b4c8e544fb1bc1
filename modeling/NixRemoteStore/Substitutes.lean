import NixRemoteStore.Operations
import NixRemoteStore.Greeting

/-! # What substituters know of paths

`RemoteStore::querySubstitutablePathInfos`, whose reply loop merges the daemon's entries into
the caller's map, and what that map holds for each path afterwards. -/

namespace NixRemoteStore

open Wire

/-- `SubstitutablePathInfo`: what a substituter knows of a path. -/
structure SubstitutablePathInfo where
  deriver : Option Bytes
  references : List Bytes
  downloadSize : Nat
  narSize : Nat
  deriving DecidableEq, Repr

def SubstitutablePathInfo.init : SubstitutablePathInfo := ⟨none, [], 0, 0⟩

/-- `SubstitutablePathInfos`, the map from store paths to what is known of them, as a
lookup. -/
abbrev SubstitutablePathInfos := Bytes → Option SubstitutablePathInfo

/-- One entry of the reply: the path, its deriver (empty when there is none), its references
and its two sizes. -/
structure InfoEntry where
  path : Bytes
  deriver : Bytes
  references : List Bytes
  downloadSize : Nat
  narSize : Nat
  deriving DecidableEq, Repr

namespace InfoEntry

def encode (e : InfoEntry) : Bytes :=
  writeString e.path ++ writeString e.deriver ++ storePaths.encode e.references ++
    writeNum e.downloadSize ++ writeNum e.narSize

def valid (e : InfoEntry) : Prop :=
  Codec.string.valid e.path ∧ Codec.string.valid e.deriver ∧ storePaths.valid e.references ∧
    e.downloadSize ≤ u64Max ∧ e.narSize ≤ u64Max

instance : DecidablePred valid := fun e =>
  inferInstanceAs (Decidable (e.path.length ≤ u64Max ∧ e.deriver.length ≤ u64Max ∧
    (e.references.length ≤ u64Max ∧ ∀ r ∈ e.references, r.length ≤ u64Max) ∧
      e.downloadSize ≤ u64Max ∧ e.narSize ≤ u64Max))

end InfoEntry

/-- `infos[path]` after the loop body of `querySubstitutablePathInfos` for one entry: made
when missing, its deriver replaced when the entry has one, its references and sizes
replaced. -/
def mergeEntry (infos : SubstitutablePathInfos) (e : InfoEntry) : SubstitutablePathInfos :=
  fun p => if p = e.path then
    let info := (infos p).getD .init
    some { deriver := if e.deriver ≠ [] then some e.deriver else info.deriver,
           references := e.references, downloadSize := e.downloadSize, narSize := e.narSize }
  else infos p

/-- The loop of `querySubstitutablePathInfos` over the `count` entries of the reply. -/
def readInfos : Nat → SubstitutablePathInfos → Reader SubstitutablePathInfos
  | 0, infos => pure infos
  | n + 1, infos => do
    let path ← readString
    let deriver ← readString
    let references ← storePaths.decode
    let downloadSize ← readLongLong
    let narSize ← readLongLong
    readInfos n (mergeEntry infos ⟨path, deriver, references, downloadSize, narSize⟩)

def readSubstitutablePathInfos (infos : SubstitutablePathInfos) : Reader SubstitutablePathInfos := do
  let count ← readNum u64Max
  readInfos count infos

/-! ### The reply -/

theorem readInfos_encode : ∀ {es : List InfoEntry}, (∀ e ∈ es, e.valid) → ∀ infos rest,
    readInfos es.length infos ((es.map InfoEntry.encode).flatten ++ rest) =
      .ok (es.foldl mergeEntry infos) rest
  | [], _, _, _ => rfl
  | e :: es, hv, infos, rest => by
    obtain ⟨h₁, h₂, h₃, h₄, h₅⟩ := hv e (List.mem_cons_self _ _)
    have hin : ((e :: es).map InfoEntry.encode).flatten ++ rest =
        writeString e.path ++ (writeString e.deriver ++ (storePaths.encode e.references ++
          (writeNum e.downloadSize ++ (writeNum e.narSize ++
            ((es.map InfoEntry.encode).flatten ++ rest))))) := by
      simp [InfoEntry.encode]
    rw [hin, List.length_cons, readInfos, Codec.string.decode_bind_encode h₁,
      Codec.string.decode_bind_encode h₂, storePaths.decode_bind_encode h₃,
      Codec.u64.decode_bind_encode h₄, Codec.u64.decode_bind_encode h₅]
    exact readInfos_encode (fun e' he' => hv e' (List.mem_cons_of_mem _ he')) _ rest

/-- The reply loop accepts only what the daemon can write: `count` well-formed entries,
merged into `infos` in order. -/
theorem readInfos_ok : ∀ {n : Nat} {infos R : SubstitutablePathInfos} {s rest : Bytes},
    readInfos n infos s = .ok R rest →
      ∃ es : List InfoEntry, es.length = n ∧ (∀ e ∈ es, e.valid) ∧
        s = (es.map InfoEntry.encode).flatten ++ rest ∧ R = es.foldl mergeEntry infos
  | 0, infos, R, s, rest, h => by
    simp only [readInfos, run_pure, EStateM.Result.ok.injEq] at h
    obtain ⟨rfl, rfl⟩ := h
    exact ⟨[], rfl, by simp, rfl, rfl⟩
  | n + 1, infos, R, s, rest, h => by
    obtain ⟨path, t₁, h₁, rfl, k₁⟩ := Codec.string.decode_bind_ok h
    obtain ⟨deriver, t₂, h₂, rfl, k₂⟩ := Codec.string.decode_bind_ok k₁
    obtain ⟨references, t₃, h₃, rfl, k₃⟩ := storePaths.decode_bind_ok k₂
    obtain ⟨downloadSize, t₄, h₄, rfl, k₄⟩ := Codec.u64.decode_bind_ok k₃
    obtain ⟨narSize, t₅, h₅, rfl, k₅⟩ := Codec.u64.decode_bind_ok k₄
    obtain ⟨es, hlen, hv, rfl, rfl⟩ := readInfos_ok k₅
    refine ⟨⟨path, deriver, references, downloadSize, narSize⟩ :: es, by simp [hlen], ?_,
      by simp [InfoEntry.encode], rfl⟩
    rintro e (_ | ⟨_, he⟩)
    · exact ⟨h₁, h₂, h₃, h₄, h₅⟩
    · exact hv e he

/-! ### What the caller's map ends with -/

/-- What the caller's map holds for `p` after the entries `es`: untouched when no entry names
`p`; otherwise the last entry's references and sizes, and the deriver of the last entry for
`p` that has one, or else the one the map had. -/
def mergedInfo (infos : SubstitutablePathInfos) (es : List InfoEntry) (p : Bytes) :
    Option SubstitutablePathInfo :=
  match es.reverse.find? (·.path = p) with
  | none => infos p
  | some e => some
    { deriver := ((es.reverse.find? fun e => e.path = p ∧ e.deriver ≠ []).map (·.deriver)) <|>
        (infos p).bind (·.deriver)
      references := e.references, downloadSize := e.downloadSize, narSize := e.narSize }

theorem mergedInfo_append_ne {infos : SubstitutablePathInfos} {es : List InfoEntry} {e : InfoEntry}
    {p : Bytes} (hp : e.path ≠ p) : mergedInfo infos (es ++ [e]) p = mergedInfo infos es p := by
  simp [mergedInfo, hp]

theorem mergedInfo_append_self (infos : SubstitutablePathInfos) (es : List InfoEntry) (e : InfoEntry) :
    mergedInfo infos (es ++ [e]) e.path = some
      { deriver := if e.deriver ≠ [] then some e.deriver
          else ((mergedInfo infos es e.path).getD .init).deriver
        references := e.references, downloadSize := e.downloadSize, narSize := e.narSize } := by
  by_cases hd : e.deriver = []
  · -- the entry sends no deriver: the one found before it stays
    have hself : (es ++ [e]).reverse.find? (·.path = e.path) = some e := by simp
    have hder : ((es ++ [e]).reverse.find? fun x => x.path = e.path ∧ x.deriver ≠ []) =
        es.reverse.find? fun x => x.path = e.path ∧ x.deriver ≠ [] := by simp [hd]
    unfold mergedInfo
    rw [hself, hder]
    rcases hf : es.reverse.find? (·.path = e.path) with _ | o
    · have hnone : (es.reverse.find? fun x => x.path = e.path ∧ x.deriver ≠ []) = none :=
        List.find?_eq_none.mpr fun x hx => by
          have := List.find?_eq_none.mp hf x hx
          simp_all
      simp only [hnone, hf]
      cases infos e.path <;> simp [hd, SubstitutablePathInfo.init]
    · simp only [hf]
      simp [hd]
  · simp [mergedInfo, hd]

theorem foldl_mergeEntry (infos : SubstitutablePathInfos) (es : List InfoEntry) (p : Bytes) :
    es.foldl mergeEntry infos p = mergedInfo infos es p := by
  induction es using List.reverseRecOn generalizing p with
  | nil => rfl
  | append_singleton es e ih =>
    rw [List.foldl_append, List.foldl_cons, List.foldl_nil]
    by_cases hp : p = e.path
    · subst hp
      rw [mergedInfo_append_self, ← ih]
      simp [mergeEntry]
    · rw [mergedInfo_append_ne (Ne.symm hp), ← ih]
      simp [mergeEntry, hp]

section Op
variable (cfg : Config)

/-- `RemoteStore::querySubstitutablePathInfos`: nothing to ask, nothing sent; otherwise the
paths (before minor 22) or the paths with their content addresses, rendered and empty when
there is none, and the reply's entries read into `infos`. -/
def querySubstitutablePathInfos (pathsMap : List (Bytes × Bytes)) (infos : SubstitutablePathInfos) :
    StoreM SubstitutablePathInfos :=
  if pathsMap = [] then pure infos
  else simpleOp cfg .querySubstitutablePathInfos
    (fun v => if getProtocolMinor v < 22 then storePaths.encode (pathsMap.map Prod.fst)
      else (Codec.list (Codec.string.pair Codec.string)).encode pathsMap)
    fun _ => readSubstitutablePathInfos infos

/-- `ConnectionHandle::processStderr` without sink or source returns only after an event
stream ended by `LAST`, and leaves the connection at what follows it. -/
theorem handleProcessStderr_last_ok {hs hs' : HandleState}
    (h : handleProcessStderr cfg none none true hs = .ok () hs') :
    ∃ E rest, (∀ e ∈ E, e.valid cfg.P none none) ∧
      hs.conn.from_ = encodeEvents cfg.P E ++ Terminal.encode cfg.P .last ++ rest ∧
      hs'.conn.from_ = rest := by
  obtain ⟨r, hs₁, h₁, h₂⟩ := bind_eq_ok.mp h
  unfold onConn at h₁
  split at h₁
  next r' cs hp =>
    cases h₁
    obtain ⟨E, T, rest, hE, -, hfrom, hrest, rfl, -⟩ := processStderr_ok cfg.P none none hp
    cases T with
    | last => cases h₂; exact ⟨E, rest, hE, hfrom, hrest⟩
    | error info => cases h₂
    | legacyError msg status => cases h₂
  next => cases h₁

/-- A request-and-reply operation that returns took a connection whose daemon sent an event
stream ended by `LAST`, then a reply the reader accepted at the connection's version. -/
theorem simpleOp_reply_ok {α : Type} {op : Op} {args : Nat → Bytes} {reply : Nat → Reader α}
    {s s' : StoreState} {a : α} (h : simpleOp cfg op args reply s = .ok a s') :
    ∃ c s₁ E rest rest', poolGet cfg s = .ok c s₁ ∧ (∀ e ∈ E, e.valid cfg.P none none) ∧
      c.from_ = encodeEvents cfg.P E ++ Terminal.encode cfg.P .last ++ rest ∧
      reply c.daemonVersion rest = .ok a rest' := by
  unfold simpleOp withConnection at h
  obtain ⟨c, s₁, hg, h⟩ := bind_eq_ok.mp h
  split at h
  next a' hs hbody =>
    obtain ⟨rfl, -⟩ := EStateM.Result.ok.inj h
    rw [run_get_bind] at hbody
    obtain ⟨_, hs₁, hw, hbody⟩ := bind_eq_ok.mp hbody
    cases hw
    obtain ⟨_, hs₂, hp, hbody⟩ := bind_eq_ok.mp hbody
    obtain ⟨E, rest, hE, hfrom, hrest⟩ := handleProcessStderr_last_ok cfg hp
    unfold onConn at hbody
    split at hbody
    next cs hr =>
      obtain ⟨rfl, -⟩ := EStateM.Result.ok.inj hbody
      have hread := (readFrom_ok hr).1
      rw [hrest] at hread
      exact ⟨c, s₁, E, rest, _, hg, hE, hfrom, hread⟩
    next => cases hbody
  next => cases h

theorem processStderr_last {P : Protocol} (st : ConnState) {t : Bytes}
    (hfrom : st.conn.from_ = Terminal.encode P .last ++ t) (doFlush : Bool) :
    processStderr P none none doFlush st = .ok none ((st.flushIf doFlush).setFrom t) := by
  rw [processStderr_eq, processStderrLoop, bind_ok
    (@processStderrStep_terminal P none none .last _ _ trivial (by simpa using hfrom))]
  rfl

/-- The converse of `simpleOp_reply_ok` for a held connection whose daemon answers
`last` at once: whatever the reply reader accepts after it, the operation returns. -/
theorem simpleOp_last {α : Type} {op : Op} {args : Nat → Bytes} {reply : Nat → Reader α}
    {s s₁ : StoreState} {c : Connection} {t rest : Bytes} {a : α}
    (hget : poolGet cfg s = .ok c s₁) (hfrom : c.from_ = Terminal.encode cfg.P .last ++ t)
    (hr : reply c.daemonVersion t = .ok a rest) : ∃ s', simpleOp cfg op args reply s = .ok a s' := by
  rw [simpleOp, withConnection_ok_get cfg hget, run_get_bind]
  have hw : writeRequest cfg op (args c.daemonVersion) ⟨s₁, c, false⟩ =
      .ok () ⟨s₁, { c with to_ := c.to_ ++ (writeNum (cfg.P.opCode op) ++ args c.daemonVersion) },
        false⟩ := rfl
  have hp := processStderr_last
    ⟨{ c with to_ := c.to_ ++ (writeNum (cfg.P.opCode op) ++ args c.daemonVersion) }, s₁.fx⟩ hfrom true
  rw [bind_ok hw]
  simp only [handleProcessStderr, run_bind, onConn, hp, rethrowDaemon, run_pure]
  rw [readFrom_eq (by exact hr)]
  exact ⟨_, rfl⟩

/-- Whatever the daemon replies, a map the call returns is the caller's map with a list of
well-formed entries merged in, for paths asked about or not: for each path, untouched when no
entry names it, else the last entry's references and sizes, and the last deriver the daemon
sent for it or else the one the caller's map had. An empty request returns the caller's map
in the state it was called in, without taking a connection. -/
theorem querySubstitutablePathInfos_merges (pathsMap : List (Bytes × Bytes))
    (infos : SubstitutablePathInfos) {s s' : StoreState} {R : SubstitutablePathInfos}
    (h : querySubstitutablePathInfos cfg pathsMap infos s = .ok R s') :
    ∃ es : List InfoEntry, (∀ e ∈ es, e.valid) ∧ (pathsMap = [] → es = [] ∧ s' = s) ∧
      (pathsMap ≠ [] → ∃ c s₁ E rest, poolGet cfg s = .ok c s₁ ∧ (∀ e ∈ E, e.valid cfg.P none none) ∧
        c.from_ = encodeEvents cfg.P E ++ Terminal.encode cfg.P .last ++ writeNum es.length ++
          (es.map InfoEntry.encode).flatten ++ rest) ∧
      ∀ p, R p = mergedInfo infos es p := by
  unfold querySubstitutablePathInfos at h
  split_ifs at h with hempty
  · simp only [run_pure, EStateM.Result.ok.injEq] at h
    obtain ⟨rfl, rfl⟩ := h
    exact ⟨[], by simp, fun _ => ⟨rfl, rfl⟩, fun h => absurd hempty h, fun p => rfl⟩
  · obtain ⟨c, s₁, E, rest, rest', hg, hE, hfrom, hr⟩ := simpleOp_reply_ok cfg h
    obtain ⟨count, t, -, rfl, hk⟩ := Codec.u64.decode_bind_ok hr
    obtain ⟨es, rfl, hv, rfl, rfl⟩ := readInfos_ok hk
    refine ⟨es, hv, fun h => absurd h hempty, fun _ => ⟨c, s₁, E, rest', hg, hE, ?_⟩,
      foldl_mergeEntry infos es⟩
    rw [hfrom]
    simp only [List.append_assoc]

def InfoEntry.twoForA : List InfoEntry :=
  [⟨txt "/nix/store/a", txt "/nix/store/a.drv", [], 10, 20⟩,
    ⟨txt "/nix/store/a", [], [txt "/nix/store/b"], 30, 40⟩]

/-- A daemon of minor 34 that answers with the entries of `InfoEntry.twoForA`. -/
def Connection.reportsSubstitutes : Connection :=
  Connection.greeted 0x122 (Terminal.encode Protocol.scenario .last ++
    (writeNum 2 ++ ((InfoEntry.twoForA.map InfoEntry.encode).flatten ++ [])))

theorem querySubstitutablePathInfos_merges_minor34 :
    ∃ R s', querySubstitutablePathInfos (Config.scenario [] 1 1000) [(txt "/nix/store/a", txt "")]
        (fun _ => none) (StoreState.withIdle Connection.reportsSubstitutes) = .ok R s' ∧
      ∃ es : List InfoEntry, (∀ e ∈ es, e.valid) ∧
        ([(txt "/nix/store/a", txt "")] = [] → es = [] ∧
          s' = StoreState.withIdle Connection.reportsSubstitutes) ∧
        ([(txt "/nix/store/a", txt "")] ≠ [] → ∃ c s₁ E rest,
          poolGet (Config.scenario [] 1 1000) (StoreState.withIdle Connection.reportsSubstitutes) =
            .ok c s₁ ∧ (∀ e ∈ E, e.valid Protocol.scenario none none) ∧
          c.from_ = encodeEvents Protocol.scenario E ++ Terminal.encode Protocol.scenario .last ++
            writeNum es.length ++ (es.map InfoEntry.encode).flatten ++ rest) ∧
        ∀ p, R p = mergedInfo (fun _ => none) es p := by
  have hget : poolGet (Config.scenario [] 1 1000) (StoreState.withIdle Connection.reportsSubstitutes) =
      .ok Connection.reportsSubstitutes
        { StoreState.withIdle Connection.reportsSubstitutes with pool := ⟨[], 1, 1⟩ } := rfl
  have hr : readSubstitutablePathInfos (fun _ => none)
      (writeNum 2 ++ ((InfoEntry.twoForA.map InfoEntry.encode).flatten ++ [])) =
        .ok (InfoEntry.twoForA.foldl mergeEntry fun _ => none) [] := by
    unfold readSubstitutablePathInfos
    rw [Codec.u64.decode_bind_encode (by decide)]
    exact @readInfos_encode InfoEntry.twoForA (by decide) _ []
  obtain ⟨s', h⟩ : ∃ s', querySubstitutablePathInfos (Config.scenario [] 1 1000)
      [(txt "/nix/store/a", txt "")] (fun _ => none)
      (StoreState.withIdle Connection.reportsSubstitutes) =
        .ok (InfoEntry.twoForA.foldl mergeEntry fun _ => none) s' := by
    rw [querySubstitutablePathInfos, if_neg (List.cons_ne_nil _ _)]
    exact simpleOp_last _ hget rfl hr
  exact ⟨_, s', h, querySubstitutablePathInfos_merges _ _ _ h⟩

end Op

end NixRemoteStore
