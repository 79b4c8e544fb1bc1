import NixRemoteStore.Runs

/-! # The builder of `builtin:fetchurl`

`builtinFetchurl` (`builtins/fetchurl.cc`) over a `FetchWorld` that answers all it calls outside
the sources, with a trace of what it did. Its mirror loop is shown to fetch the candidate URLs
in order and stop at the first that succeeds. -/

namespace NixRemoteStore
namespace Fetchurl

open Wire

/-- A `Hash` as the builder reads it: its type, and its base-16 text without the type
(`h.to_string(Base16, false)`). -/
structure Hash where
  type : HashType
  base16 : Bytes
  deriving DecidableEq, Repr

structure FileTransferRequest where
  uri : Bytes
  verifyTLS : Bool
  deriving DecidableEq, Repr

/-- What a write reads from: bytes the builder holds, or a download read through
`makeDecompressionSource(method, raw)`. -/
inductive FetchSource
  | bytes (data : Bytes)
  | decompressed (method raw : Bytes)
  deriving DecidableEq, Repr

/-- A call out of the builder, in the order the builder makes it. `writeFile` with mode
`none` is the default mode. -/
inductive FetchEffect
  | writeFile (path : Bytes) (source : FetchSource) (mode : Option Nat)
  | download (request : FileTransferRequest)
  | restorePath (path : Bytes) (source : FetchSource)
  | chmod (path : Bytes) (mode : Nat)
  | debug (e : Exn)
  deriving DecidableEq, Repr

structure FetchState where
  netrcFile : Bytes
  hashedMirrors : List Bytes
  trace : List FetchEffect
  deriving DecidableEq, Repr

/-- The machine: how each call out of the builder ends, given the state before it. -/
structure FetchWorld where
  writeFile : FetchState → Bytes → FetchSource → Option Nat → Except Exn Unit
  download : FetchState → FileTransferRequest → Except Exn Bytes
  restorePath : FetchState → Bytes → FetchSource → Except Exn Unit
  /-- `chmod(path, mode)`: `none` on success, else the `errno` of the failure. -/
  chmod : FetchState → Bytes → Nat → Option Nat
  parseHashTypeOpt : Bytes → Option HashType
  /-- `newHashAllowEmpty(s, ht)`: a hash, or `BadHash`. -/
  newHashAllowEmpty : Bytes → Option HashType → Except Exn Hash
  printHashType : HashType → Bytes

structure BasicDerivation where
  env : Bytes → Option Bytes

abbrev FetchM := EStateM Exn FetchState

def record (e : FetchEffect) : FetchM Unit := modify fun s => { s with trace := s.trace ++ [e] }

def perform {α : Type} (e : FetchEffect) (answer : FetchState → Except Exn α) : FetchM α := do
  let s ← get
  record e
  ofExcept (answer s)

/-- `getAttr`: the attribute, or `Error("attribute '%s' missing", name)`. -/
def getAttr (drv : BasicDerivation) (name : Bytes) : Except Exn Bytes :=
  match drv.env name with
  | some v => .ok v
  | none => .error (Exn.fail (txt "attribute '" ++ name ++ txt "' missing"))

/-- `fetch(url)`: download without TLS verification, store the body at `storePath` (as an
archive when unpacking, through `xz` when the derivation's own URL ends in `.xz`), and make it
executable when the derivation asks. -/
def fetch (w : FetchWorld) (drv : BasicDerivation) (storePath mainUrl : Bytes) (unpack : Bool)
    (url : Bytes) : FetchM Unit := do
  let request : FileTransferRequest := ⟨url, false⟩
  let raw ← perform (.download request) (w.download · request)
  let decompressor := FetchSource.decompressed
    (if unpack && (txt ".xz").isSuffixOf mainUrl then txt "xz" else txt "none") raw
  if unpack then
    perform (.restorePath storePath decompressor) (w.restorePath · storePath decompressor)
  else
    perform (.writeFile storePath decompressor none) (w.writeFile · storePath decompressor none)
  if drv.env (txt "executable") = some (txt "1") then
    match ← perform (.chmod storePath 0o755) (fun s => .ok (w.chmod s storePath 0o755)) with
    | some errNo => throw (.sysError errNo (txt "making '" ++ storePath ++ txt "' executable"))
    | none => pure ()

/-- The loop over the hashed mirrors: `true` when a mirror's fetch succeeded and the builder
returns. Each round parses the hash anew; an `Error` is logged and the next mirror tried. -/
def tryHashedMirrors (w : FetchWorld) (drv : BasicDerivation) (fetch : Bytes → FetchM Unit) :
    List Bytes → FetchM Bool
  | [] => pure false
  | hashedMirror :: rest =>
    tryCatch
      (do
        let hashedMirror :=
          if (txt "/").isSuffixOf hashedMirror then hashedMirror else hashedMirror ++ txt "/"
        let ht := w.parseHashTypeOpt (← ofExcept (getAttr drv (txt "outputHashAlgo")))
        let h ← ofExcept (w.newHashAllowEmpty (← ofExcept (getAttr drv (txt "outputHash"))) ht)
        fetch (hashedMirror ++ w.printHashType h.type ++ txt "/" ++ h.base16)
        pure true)
      fun e =>
        if e.isError then do
          record (.debug e)
          tryHashedMirrors w drv fetch rest
        else throw e

/-- The first block of `builtinFetchurl`: make the host's netrc data available, in the file
`netrc` that `settings.netrcFile` then names. -/
def installNetrc (w : FetchWorld) (netrcData : Bytes) : FetchM Unit :=
  if netrcData ≠ [] then do
    modify fun s => { s with netrcFile := txt "netrc" }
    perform (.writeFile (txt "netrc") (.bytes netrcData) (some 0o600))
      (w.writeFile · (txt "netrc") (.bytes netrcData) (some 0o600))
  else pure ()

/-- `builtinFetchurl(drv, netrcData)`. The early `return` of the mirror loop is its
result `true`. -/
def builtinFetchurl (w : FetchWorld) (drv : BasicDerivation) (netrcData : Bytes) :
    FetchM Unit := do
  installNetrc w netrcData
  let storePath ← ofExcept (getAttr drv (txt "out"))
  let mainUrl ← ofExcept (getAttr drv (txt "url"))
  let unpack := (drv.env (txt "unpack")).getD [] == txt "1"
  let returned ← if (← ofExcept (getAttr drv (txt "outputHashMode"))) = txt "flat" then
      tryHashedMirrors w drv (fetch w drv storePath mainUrl unpack) (← get).hashedMirrors
    else pure false
  if returned then pure () else fetch w drv storePath mainUrl unpack mainUrl

/-- A machine to run the builder on: every download serves `body`, every write and `chmod`
succeeds, `sha256` is the one hash type it knows, and a hash is its text. -/
def FetchWorld.serving (body : Bytes) : FetchWorld where
  writeFile _ _ _ _ := .ok ()
  download _ _ := .ok body
  restorePath _ _ _ := .ok ()
  chmod _ _ _ := none
  parseHashTypeOpt name := if name = txt "sha256" then some .sha256 else none
  newHashAllowEmpty text _ := .ok ⟨.sha256, text⟩
  printHashType := HashType.name

def BasicDerivation.ofList (attrs : List (Bytes × Bytes)) : BasicDerivation := ⟨attrs.lookup⟩

def BasicDerivation.fixedOutput : BasicDerivation :=
  .ofList [(txt "out", txt "/nix/store/x"), (txt "url", txt "https://x"),
    (txt "outputHashMode", txt "flat"), (txt "outputHashAlgo", txt "sha256"), (txt "outputHash", txt "abc")]

/-! ### What the mirror loop is for -/

section Loop
variable (w : FetchWorld) (drv : BasicDerivation)

def mirrorHash : Except Exn Hash := do
  let ht := w.parseHashTypeOpt (← getAttr drv (txt "outputHashAlgo"))
  w.newHashAllowEmpty (← getAttr drv (txt "outputHash")) ht

/-- The URL of a hashed mirror for a hash: the mirror with a trailing slash, the hash type,
and the hash in base 16. -/
def mirrorUrl (h : Hash) (hashedMirror : Bytes) : Bytes :=
  (if (txt "/").isSuffixOf hashedMirror then hashedMirror else hashedMirror ++ txt "/") ++
    w.printHashType h.type ++ txt "/" ++ h.base16

/-- Fetch the candidates in order, log each `Error`, stop at the first that succeeds. -/
def firstFetch (fetch : Bytes → FetchM Unit) : List Bytes → FetchM Bool
  | [] => pure false
  | url :: rest =>
    tryCatch
      (do
        fetch url
        pure true)
      fun e =>
        if e.isError then do
          record (.debug e)
          firstFetch fetch rest
        else throw e

theorem tryHashedMirrors_cons (fetch : Bytes → FetchM Unit) (m : Bytes) (ms : List Bytes) :
    tryHashedMirrors w drv fetch (m :: ms) =
      tryCatch
        (do
          let h ← ofExcept (mirrorHash w drv)
          fetch (mirrorUrl w h m)
          pure true)
        fun e =>
          if e.isError then do
            record (.debug e)
            tryHashedMirrors w drv fetch ms
          else throw e := by
  rw [tryHashedMirrors, mirrorHash]
  rcases getAttr drv (txt "outputHashAlgo") with _ | a <;>
    rcases getAttr drv (txt "outputHash") with _ | b <;> rfl

/-- The loop parses the hash once: with a hash, it is the first-success fetch of the mirror
URLs; without one, every round raises the parse's exception. -/
theorem tryHashedMirrors_eq (fetch : Bytes → FetchM Unit) : ∀ ms : List Bytes,
    tryHashedMirrors w drv fetch ms = match mirrorHash w drv with
      | .ok h => firstFetch fetch (ms.map (mirrorUrl w h))
      | .error e => firstFetch (fun _ => throw e) ms
  | [] => by split <;> rfl
  | m :: ms => by
    rw [tryHashedMirrors_cons, tryHashedMirrors_eq fetch ms]
    split <;> rename_i heq <;> rw [heq] <;> rfl

end Loop

/-! ### The downloads of a run -/

def requests (trace : List FetchEffect) : List FileTransferRequest :=
  trace.filterMap fun
    | .download r => some r
    | _ => none

@[simp] theorem requests_append (a b : List FetchEffect) :
    requests (a ++ b) = requests a ++ requests b :=
  List.filterMap_append _ _ _

@[simp] theorem requests_download (r : FileTransferRequest) : requests [.download r] = [r] := rfl

@[simp] theorem requests_debug (e : Exn) : requests [.debug e] = [] := rfl

theorem perform_state {α : Type} (e : FetchEffect) (answer : FetchState → Except Exn α)
    (s : FetchState) : resultState (perform e answer s) = { s with trace := s.trace ++ [e] } := by
  simp only [perform, record, run_get, run_bind, run_modify, ofExcept]
  cases answer s <;> rfl

def FetchState.RequestsAre (k : List FileTransferRequest) (s : FetchState) : Prop :=
  requests s.trace = k

section Steps
variable {k : List FileTransferRequest}

theorem record_requests {e : FetchEffect} (he : ∀ r, e ≠ .download r) :
    Preserves (FetchState.RequestsAre k) (record e) := by
  intro s h
  cases e <;> first | exact absurd rfl (he _) | simpa [record, FetchState.RequestsAre, requests] using h

theorem perform_requests {α : Type} {e : FetchEffect} (he : ∀ r, e ≠ .download r)
    (answer : FetchState → Except Exn α) : Preserves (FetchState.RequestsAre k) (perform e answer) :=
  preserves_get_bind fun _ =>
    preserves_bind (record_requests he) fun _ => ofExcept_preserves _

theorem requests_bind {α β : Type} {m : FetchM α} {f : α → FetchM β}
    (hf : ∀ a k, Preserves (FetchState.RequestsAre k) (f a)) (s : FetchState) :
    requests (resultState ((m >>= f) s)).trace = requests (resultState (m s)).trace := by
  simp only [run_bind]
  cases m s with
  | ok a s' => exact hf a _ s' rfl
  | error e s' => rfl

theorem perform_download_requests {α : Type} (r : FileTransferRequest)
    (answer : FetchState → Except Exn α) (s : FetchState) :
    requests (resultState (perform (.download r) answer s)).trace = requests s.trace ++ [r] := by
  simp [perform_state]

variable (w : FetchWorld) (drv : BasicDerivation)

theorem fetch_requests (storePath mainUrl : Bytes) (unpack : Bool) (url : Bytes) (s : FetchState) :
    requests (resultState (fetch w drv storePath mainUrl unpack url s)).trace =
      requests s.trace ++ [⟨url, false⟩] := by
  unfold fetch
  rw [requests_bind, perform_download_requests]
  intro _ _
  repeat' first
    | with_reducible refine preserves_bind ?_ fun _ => ?_
    | with_reducible refine preserves_ite ?_ ?_
    | with_reducible exact preserves_pure _
    | with_reducible exact preserves_throw _
    | exact perform_requests (by simp) _
    | split

/-- Over every list of candidates: the run downloads what the fetches of a prefix of them
download, in order; it returns `true` only after some fetch, `false` only after all, and never
lets an `Error` through. -/
theorem firstFetch_requests {fetch : Bytes → FetchM Unit} {d : Bytes → List FileTransferRequest}
    (hf : ∀ u s, requests (resultState (fetch u s)).trace = requests s.trace ++ d u) :
    ∀ (urls : List Bytes) (s : FetchState), ∃ j ≤ urls.length,
      requests (resultState (firstFetch fetch urls s)).trace =
        requests s.trace ++ (urls.take j).flatMap d ∧
      (∀ s', firstFetch fetch urls s = .ok true s' → 0 < j) ∧
      (∀ s', firstFetch fetch urls s = .ok false s' → j = urls.length) ∧
      (∀ e s', firstFetch fetch urls s = .error e s' → e.isError = false)
  | [], s => ⟨0, le_rfl, by simp [firstFetch], by simp [firstFetch], fun _ _ => rfl,
      by simp [firstFetch]⟩
  | u :: us, s => by
    have hu := hf u s
    simp only [firstFetch, run_tryCatch, run_bind]
    cases hr : fetch u s with
    | ok _ s₁ =>
      rw [hr] at hu
      exact ⟨1, by simp, by simpa using hu, fun _ _ => Nat.one_pos, by simp, by simp⟩
    | error e s₁ =>
      rw [hr, resultState_error] at hu
      cases he : e.isError with
      | false =>
        exact ⟨1, by simp, by simpa [he] using hu, by simp [he], by simp [he],
          fun _ _ h => by simp [he] at h; exact h.1 ▸ he⟩
      | true =>
        obtain ⟨j, hj, hreq, htrue, hfalse, herr⟩ :=
          firstFetch_requests hf us { s₁ with trace := s₁.trace ++ [.debug e] }
        simp only [he, record, run_bind, run_modify, if_pos]
        exact ⟨j + 1, by simpa using hj, by simp [hreq, hu], fun _ _ => j.succ_pos,
          fun s' h => by simp [hfalse s' h], herr⟩

theorem firstFetch_throw (e : Exn) : ∀ (ms : List Bytes) (s : FetchState),
    firstFetch (fun _ => throw e) ms s =
      if ms = [] ∨ e.isError then .ok false { s with trace := s.trace ++ ms.map fun _ => .debug e }
      else .error e s
  | [], s => by simp [firstFetch]
  | m :: ms, s => by
    cases he : e.isError <;> simp [firstFetch, he, record, firstFetch_throw e ms]

theorem installNetrc_requests (netrcData : Bytes) (s : FetchState) :
    requests (resultState (installNetrc w netrcData s)).trace = requests s.trace ∧
      (resultState (installNetrc w netrcData s)).hashedMirrors = s.hashedMirrors := by
  unfold installNetrc
  split <;> simp [perform_state, requests]

theorem getAttr_eq_ok {name v : Bytes} : getAttr drv name = .ok v ↔ drv.env name = some v := by
  unfold getAttr
  split <;> simp_all

def Tried (C : List Bytes) (k : List FileTransferRequest) (r : EStateM.Result Exn FetchState Unit)
    (j : Nat) : Prop :=
  requests (resultState r).trace = k ++ (C.take j).map (FileTransferRequest.mk · false) ∧
    (∀ s', r = .ok () s' → 0 < j) ∧ (∀ e s', r = .error e s' → e.isError → j = 0 ∨ j = C.length)

theorem tried_error {C : List Bytes} {k : List FileTransferRequest} {e : Exn} {t : FetchState}
    (h : requests t.trace = k) : Tried C k (.error e t) 0 :=
  ⟨by simpa using h, by simp, by simp⟩

/-- After the loop: the derivation's own URL is fetched, the last candidate, unless a
mirror's fetch returned. -/
theorem loop_then_url (storePath mainUrl : Bytes) (unpack : Bool) {C : List Bytes}
    {k : List FileTransferRequest} {m : FetchM Bool} {t : FetchState} {j : Nat} (hj : j ≤ C.length)
    (hreq : requests (resultState (m t)).trace = k ++ (C.take j).map (FileTransferRequest.mk · false))
    (htrue : ∀ t', m t = .ok true t' → 0 < j) (hfalse : ∀ t', m t = .ok false t' → j = C.length)
    (herr : ∀ e t', m t = .error e t' → e.isError = false) :
    ∃ j', Tried (C ++ [mainUrl]) k ((m >>= fun y =>
      if y = true then pure () else fetch w drv storePath mainUrl unpack mainUrl) t) j' := by
  simp only [run_bind]
  cases hr : m t with
  | ok y t' =>
    rw [hr, resultState_ok] at hreq
    cases y with
    | true =>
      exact ⟨j, by simpa [List.take_append_of_le_length hj] using hreq, fun _ _ => htrue t' hr,
        by simp⟩
    | false =>
      have hC := hfalse t' hr
      subst hC
      refine ⟨C.length + 1, ?_, fun _ _ => Nat.succ_pos _, fun _ _ _ _ => .inr (by simp)⟩
      simp only [Bool.false_eq_true, if_false, fetch_requests, hreq]
      simp
  | error e t' =>
    rw [hr, resultState_error] at hreq
    refine ⟨j, by simpa [List.take_append_of_le_length hj] using hreq, by simp, fun e' _ h hE => ?_⟩
    obtain ⟨rfl, -⟩ : e = e' ∧ _ := by simpa using h
    simp [herr _ _ hr] at hE

/-- The URLs a run may download, in the order it tries them: in flat mode with a hash that
parses, the hashed mirrors' URLs for it; then the derivation's own URL. -/
def candidateUrls (s : FetchState) : List Bytes :=
  (if drv.env (txt "outputHashMode") = some (txt "flat") then
    match mirrorHash w drv with
    | .ok h => s.hashedMirrors.map (mirrorUrl w h)
    | .error _ => []
  else []) ++ [(drv.env (txt "url")).getD []]

/-- Every run downloads, in order and without TLS verification, a prefix of the hashed
mirrors' URLs and then the derivation's own URL; it returns only after a download, and an
`Error` reaches the caller only from before the first download or from the derivation's
URL: the loop never lets one through. -/
theorem builtinFetchurl_tries_mirrors_then_url (netrcData : Bytes) (s : FetchState) :
    ∃ j, requests (resultState (builtinFetchurl w drv netrcData s)).trace =
        requests s.trace ++ ((candidateUrls w drv s).take j).map (FileTransferRequest.mk · false) ∧
      (∀ s', builtinFetchurl w drv netrcData s = .ok () s' → 0 < j) ∧
      (∀ e s', builtinFetchurl w drv netrcData s = .error e s' → e.isError →
        j = 0 ∨ j = (candidateUrls w drv s).length) := by
  obtain ⟨hreq₁, hm₁⟩ := installNetrc_requests w netrcData s
  simp only [builtinFetchurl, run_bind]
  cases h₁ : installNetrc w netrcData s with
  | error e s₁ => exact ⟨0, tried_error (by simpa [h₁] using hreq₁)⟩
  | ok _ s₁ =>
  rw [h₁, resultState_ok] at hreq₁ hm₁
  rcases hout : getAttr drv (txt "out") with e | storePath
  · exact ⟨0, tried_error hreq₁⟩
  rcases hurl : getAttr drv (txt "url") with e | mainUrl
  · exact ⟨0, tried_error hreq₁⟩
  rcases hmode : getAttr drv (txt "outputHashMode") with e | mode
  · exact ⟨0, tried_error hreq₁⟩
  simp only [ofExcept, run_pure]
  have hC : candidateUrls w drv s = (if mode = txt "flat" then
      (match mirrorHash w drv with
        | .ok h => s₁.hashedMirrors.map (mirrorUrl w h)
        | .error _ => []) else []) ++ [mainUrl] := by
    simp [candidateUrls, (getAttr_eq_ok drv).mp hmode, (getAttr_eq_ok drv).mp hurl, hm₁]
  rw [hC, ← hreq₁]
  split_ifs with hflat
  · rw [run_get_bind, tryHashedMirrors_eq]
    cases hh : mirrorHash w drv with
    | ok h =>
      obtain ⟨j, hj, hreq, htrue, hfalse, herr⟩ :=
        firstFetch_requests (fetch_requests w drv storePath mainUrl _) (s₁.hashedMirrors.map (mirrorUrl w h)) s₁
      exact loop_then_url w drv _ _ _ hj (hreq.trans (congrArg _ (List.flatMap_pure_eq_map _ _)))
        htrue hfalse herr
    | error e₀ =>
      refine loop_then_url w drv _ _ _ (le_refl 0) ?_ ?_ (fun _ _ => rfl) ?_ <;>
        simp only [firstFetch_throw] <;> split_ifs with he
      · simp [requests]
      · simp
      all_goals simp_all
  · exact loop_then_url w drv _ _ _ (le_refl 0) (by simp) (by simp) (fun _ _ => rfl) (by simp)

/-- How a fetch that returns extends the trace: the download, the write of its body at the
store path through the decompressor the derivation's own URL selects, and `chmod` when the
derivation asks for an executable. -/
def fetchTail (storePath mainUrl : Bytes) (unpack : Bool) (url raw : Bytes) : List FetchEffect :=
  let decompressor := FetchSource.decompressed
    (if unpack && (txt ".xz").isSuffixOf mainUrl then txt "xz" else txt "none") raw
  [.download ⟨url, false⟩,
    if unpack then .restorePath storePath decompressor else .writeFile storePath decompressor none] ++
  if drv.env (txt "executable") = some (txt "1") then [.chmod storePath 0o755] else []

theorem perform_eq_ok {α : Type} {e : FetchEffect} {answer : FetchState → Except Exn α}
    {s s' : FetchState} {a : α} :
    perform e answer s = .ok a s' ↔ answer s = .ok a ∧ s' = { s with trace := s.trace ++ [e] } := by
  simp only [perform, record, run_get, run_bind, run_modify, ofExcept]
  cases answer s <;> simp [eq_comm]

theorem fetch_ok {storePath mainUrl : Bytes} {unpack : Bool} {url : Bytes} {t t' : FetchState}
    (h : fetch w drv storePath mainUrl unpack url t = .ok () t') :
    ∃ raw, t'.trace = t.trace ++ fetchTail drv storePath mainUrl unpack url raw := by
  obtain ⟨raw, t₁, hd, h⟩ := bind_eq_ok.mp h
  have ht₁ := (perform_eq_ok.mp hd).2
  refine ⟨raw, ?_⟩
  -- the write, then `chmod` when asked; the same steps whether or not the body is unpacked
  split at h <;> obtain ⟨_, t₂, hw, h⟩ := bind_eq_ok.mp h <;> have ht₂ := (perform_eq_ok.mp hw).2 <;>
    split at h
  all_goals first
    | (cases h; simp [fetchTail, ht₂, ht₁, *])
    | obtain ⟨o, t₃, hc, h⟩ := bind_eq_ok.mp h
      have ht₃ := (perform_eq_ok.mp hc).2
      cases o
      · cases h; simp [fetchTail, ht₃, ht₂, ht₁, *]
      · cases h

theorem firstFetch_ok_true {fetch : Bytes → FetchM Unit} :
    ∀ {urls : List Bytes} {s s' : FetchState}, firstFetch fetch urls s = .ok true s' →
      ∃ url ∈ urls, ∃ t, fetch url t = .ok () s'
  | [], _, _, h => by simp [firstFetch] at h
  | u :: us, s, s', h => by
    simp only [firstFetch, run_tryCatch, run_bind] at h
    cases hr : fetch u s with
    | ok _ t => rw [hr] at h; cases h; exact ⟨u, List.mem_cons_self _ _, s, hr⟩
    | error e t =>
      rw [hr] at h
      cases he : e.isError
      · simp [he] at h
      · simp only [he, record, if_true, run_bind, run_modify] at h
        obtain ⟨url, hu, ht⟩ := firstFetch_ok_true h
        exact ⟨url, List.mem_cons_of_mem _ hu, ht⟩

theorem loop_then_url_ok {storePath mainUrl : Bytes} {unpack : Bool} {m : FetchM Bool}
    {t s' : FetchState} (h : (m >>= fun y =>
      if y = true then pure () else fetch w drv storePath mainUrl unpack mainUrl) t = .ok () s') :
    m t = .ok true s' ∨ ∃ t', m t = .ok false t' ∧ fetch w drv storePath mainUrl unpack mainUrl t' = .ok () s' := by
  simp only [run_bind] at h
  split at h
  · rename_i y t' hm
    cases y
    · exact .inr ⟨t', hm, h⟩
    · cases h; exact .inl hm
  · cases h

theorem ofExcept_bind_ok {α β : Type} {x : Except Exn α} {f : α → FetchM β} {s s' : FetchState}
    {b : β} (h : (ofExcept x >>= f) s = .ok b s') : ∃ a, x = .ok a ∧ f a s = .ok b s' := by
  cases x with
  | error e => cases h
  | ok a => exact ⟨a, rfl, h⟩

/-- A run that returns ends with a whole fetch of one of its candidates: the store path holds
a download's body, restored as an archive or written as the derivation asks, read through
`xz` exactly when it unpacks and its own URL ends in `.xz`, and made executable when it
asks. -/
theorem builtinFetchurl_ok_ends_with_fetch (netrcData : Bytes) {s s' : FetchState}
    (h : builtinFetchurl w drv netrcData s = .ok () s') :
    ∃ storePath mainUrl url raw pre, drv.env (txt "out") = some storePath ∧
      drv.env (txt "url") = some mainUrl ∧ url ∈ candidateUrls w drv s ∧
      s'.trace = pre ++
        fetchTail drv storePath mainUrl ((drv.env (txt "unpack")).getD [] == txt "1") url raw := by
  obtain ⟨_, s₁, h₁, h⟩ := bind_eq_ok.mp h
  obtain ⟨storePath, hout, h⟩ := ofExcept_bind_ok h
  obtain ⟨mainUrl, hurl, h⟩ := ofExcept_bind_ok h
  obtain ⟨mode, hmode, h⟩ := ofExcept_bind_ok h
  rw [getAttr_eq_ok] at hout hurl hmode
  -- a whole fetch of a candidate ends the run
  have hend : ∀ url ∈ candidateUrls w drv s, ∀ t, fetch w drv storePath mainUrl
      ((drv.env (txt "unpack")).getD [] == txt "1") url t = .ok () s' →
      ∃ storePath mainUrl url raw pre, drv.env (txt "out") = some storePath ∧
        drv.env (txt "url") = some mainUrl ∧ url ∈ candidateUrls w drv s ∧
        s'.trace = pre ++
          fetchTail drv storePath mainUrl ((drv.env (txt "unpack")).getD [] == txt "1") url raw :=
    fun url hu t hf => by
      obtain ⟨raw, htr⟩ := fetch_ok w drv hf
      exact ⟨storePath, mainUrl, url, raw, t.trace, hout, hurl, hu, htr⟩
  have hmain : mainUrl ∈ candidateUrls w drv s := by simp [candidateUrls, hurl]
  dsimp only at h
  split_ifs at h with hflat
  · rw [run_get_bind, tryHashedMirrors_eq] at h
    rcases loop_then_url_ok w drv h with h | ⟨t', -, h⟩
    · cases hh : mirrorHash w drv with
      | ok hash =>
        rw [hh] at h
        obtain ⟨url, hu, t, hf⟩ := firstFetch_ok_true h
        have hm₁ := (installNetrc_requests w netrcData s).2
        rw [h₁, resultState_ok] at hm₁
        exact hend url (by simp [candidateUrls, hmode, hflat, hh, ← hm₁, hu]) t hf
      | error e₀ =>
        simp only [hh, firstFetch_throw] at h
        split_ifs at h
        cases h
    · exact hend mainUrl hmain t' h
  · rcases loop_then_url_ok w drv h with h | ⟨t', -, h⟩
    · cases h
    · exact hend mainUrl hmain t' h

theorem builtinFetchurl_ok_ends_with_fetch_mirror :
    ∃ s', builtinFetchurl (.serving (txt "body")) .fixedOutput [] ⟨[], [txt "m"], []⟩ = .ok () s' ∧
      ∃ storePath mainUrl url raw pre, BasicDerivation.fixedOutput.env (txt "out") = some storePath ∧
        BasicDerivation.fixedOutput.env (txt "url") = some mainUrl ∧
        url ∈ candidateUrls (.serving (txt "body")) .fixedOutput ⟨[], [txt "m"], []⟩ ∧
        s'.trace = pre ++ fetchTail .fixedOutput storePath mainUrl
          ((BasicDerivation.fixedOutput.env (txt "unpack")).getD [] == txt "1") url raw :=
  ⟨_, rfl, builtinFetchurl_ok_ends_with_fetch _ _ [] rfl⟩

end Steps

end Fetchurl
end NixRemoteStore
