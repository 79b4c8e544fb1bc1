import Mathlib.Data.Nat.Defs
import Mathlib.Order.Lattice

/-! # Static environments and formals of the evaluator

`StaticEnv::sort`, `deduplicate` and `find`, and `Formals::has` (nixexpr.hh), for any strict
total order on symbols: after `sort` and `deduplicate`, `find` gives a name's last binding. -/

namespace NixRemoteStore

abbrev Displacement := UInt32

/-- `std::lower_bound(first, last, value, comp)` over `xs`, as the C++ standard library computes
it: it halves the part `[first, first + len)` still searched, and steps past the middle when
`comp(*middle, value)` holds. The result is an index, `xs.length` standing for `last`. -/
def lowerBound {α β : Type} (comp : α → β → Bool) (xs : List α) (value : β) : Nat :=
  go 0 xs.length (Nat.le_of_eq (Nat.zero_add _))
where
  /-- The loop `while (len > 0)`. -/
  go (first len : Nat) (h : first + len ≤ xs.length) : Nat :=
    if hlen : 0 < len then
      if comp xs[first + len / 2] value then go (first + len / 2 + 1) (len - len / 2 - 1) (by omega)
      else go first (len / 2) (by omega)
    else first
  termination_by len

section LowerBound

variable {α β : Type} {comp : α → β → Bool} {xs : List α} {value : β}

theorem findIdx_eq_of_split {p : α → Bool} {i : Nat} (hi : i ≤ xs.length)
    (hbefore : ∀ j (hj : j < xs.length), j < i → p xs[j] = false)
    (hfrom : ∀ j (hj : j < xs.length), i ≤ j → p xs[j] = true) : xs.findIdx p = i := by
  rcases Nat.lt_or_ge i xs.length with hlt | hge
  · exact (List.findIdx_eq hlt).2 ⟨hfrom i hlt le_rfl, fun j hj => hbefore j _ hj⟩
  · rw [Nat.le_antisymm hi hge, List.findIdx_eq_length]
    intro x hx
    obtain ⟨j, hj, rfl⟩ := List.getElem_of_mem hx
    exact hbefore j hj (by omega)

theorem comp_of_le (hpart : xs.Pairwise fun a b => comp b value = true → comp a value = true)
    {i j : Nat} (hi : i < xs.length) (hj : j < xs.length) (hij : i ≤ j)
    (h : comp xs[j] value = true) : comp xs[i] value = true := by
  rcases Nat.eq_or_lt_of_le hij with rfl | hlt
  · exact h
  · exact List.pairwise_iff_getElem.1 hpart i j hi hj hlt h

theorem lowerBound_go_eq (hpart : xs.Pairwise fun a b => comp b value = true → comp a value = true)
    (first len : Nat) (h : first + len ≤ xs.length)
    (hlow : ∀ j (hj : j < xs.length), j < first → comp xs[j] value = true)
    (hhigh : ∀ j (hj : j < xs.length), first + len ≤ j → comp xs[j] value = false) :
    lowerBound.go comp xs value first len h = xs.findIdx fun a => !comp a value := by
  induction first, len, h using lowerBound.go.induct comp xs value with
  | case1 first len h hlen hmid ih =>
    rw [lowerBound.go, dif_pos hlen, if_pos hmid]
    refine ih (fun j hj hlt => ?_) (fun j hj hle => hhigh j hj (by omega))
    rcases Nat.lt_or_ge j first with hjf | hjf
    · exact hlow j hj hjf
    · exact comp_of_le hpart hj _ (by omega) hmid
  | case2 first len h hlen hmid ih =>
    rw [lowerBound.go, dif_pos hlen, if_neg hmid]
    refine ih hlow fun j hj hle => ?_
    by_contra hc
    exact hmid (comp_of_le hpart _ hj hle (by simpa using hc))
  | case3 first len h hlen =>
    rw [lowerBound.go, dif_neg hlen]
    exact (findIdx_eq_of_split (by omega) (fun j hj hlt => by simp [hlow j hj hlt])
      (fun j hj hle => by simp [hhigh j hj (by omega)])).symm

/-- `std::lower_bound` returns the first position where `comp · value` fails, on every range
partitioned by it. -/
theorem lowerBound_eq_findIdx
    (hpart : xs.Pairwise fun a b => comp b value = true → comp a value = true) :
    lowerBound comp xs value = xs.findIdx fun a => !comp a value :=
  lowerBound_go_eq hpart 0 xs.length _ (fun _ _ h => absurd h (Nat.not_lt_zero _))
    fun j hj hle => absurd hj (by omega)

end LowerBound

/-- `StaticEnv`, from nixexpr.hh, with its variables: `isWith` and `up` are read by none of the
members modelled here. -/
structure StaticEnv (Symbol : Type) where
  vars : List (Symbol × Displacement)
  deriving DecidableEq, Repr

section Members

variable {Symbol : Type} [LinearOrder Symbol]

def pairLt (a b : Symbol × Displacement) : Bool :=
  decide (a.1 < b.1) || (!decide (b.1 < a.1) && decide (a.2 < b.2))

/-- `StaticEnv::sort`: `std::stable_sort` by `a.first < b.first`. Merge sort is stable, and a
stable sort's result is determined by its input, so `List.mergeSort` computes what
`std::stable_sort` does; its `≤` is "not `b.first < a.first`". -/
def StaticEnv.sort (env : StaticEnv Symbol) : StaticEnv Symbol :=
  ⟨env.vars.mergeSort fun a b => !decide (b.1 < a.1)⟩

/-- The inner loop of `StaticEnv::deduplicate`,
`while (jt != end && it->first == jt->first) *it = *jt++;`, on the vector `vars` with the
iterators as indices. It returns the vector and `jt`. -/
def StaticEnv.deduplicateRun (it : Nat) (vars : List (Symbol × Displacement)) (jt : Nat)
    (hit : it < jt) : List (Symbol × Displacement) × Nat :=
  if h : jt < vars.length then
    if vars[it].1 = vars[jt].1 then deduplicateRun it (vars.set it vars[jt]) (jt + 1) (by omega)
    else (vars, jt)
  else (vars, jt)
  termination_by vars.length - jt
  decreasing_by simp_wf; omega

theorem StaticEnv.deduplicateRun_length (it : Nat) (vars : List (Symbol × Displacement))
    (jt : Nat) (hit : it < jt) : (deduplicateRun it vars jt hit).1.length = vars.length := by
  induction vars, jt, hit using @StaticEnv.deduplicateRun.induct Symbol _ it with
  | case1 vars jt hit h heq ih => rw [deduplicateRun, dif_pos h, if_pos heq, ih, List.length_set]
  | case2 vars jt hit h heq => rw [deduplicateRun, dif_pos h, if_neg heq]
  | case3 vars jt hit h => rw [deduplicateRun, dif_neg h]

theorem StaticEnv.le_deduplicateRun (it : Nat) (vars : List (Symbol × Displacement))
    (jt : Nat) (hit : it < jt) : jt ≤ (deduplicateRun it vars jt hit).2 := by
  induction vars, jt, hit using @StaticEnv.deduplicateRun.induct Symbol _ it with
  | case1 vars jt hit h heq ih => rw [deduplicateRun, dif_pos h, if_pos heq]; omega
  | case2 vars jt hit h heq => rw [deduplicateRun, dif_pos h, if_neg heq]
  | case3 vars jt hit h => rw [deduplicateRun, dif_neg h]

/-- The outer loop of `StaticEnv::deduplicate`: while `jt != end`, `*it = *jt++;`, the inner
loop, `it++;`. It returns the vector and `it`. -/
def StaticEnv.deduplicateLoop (vars : List (Symbol × Displacement)) (it jt : Nat)
    (hit : it ≤ jt) : List (Symbol × Displacement) × Nat :=
  if h : jt < vars.length then
    deduplicateLoop (deduplicateRun it (vars.set it vars[jt]) (jt + 1) (by omega)).1 (it + 1)
      (deduplicateRun it (vars.set it vars[jt]) (jt + 1) (by omega)).2
      (Nat.le_trans (Nat.succ_le_succ hit) (le_deduplicateRun it _ (jt + 1) _))
  else (vars, it)
  termination_by vars.length - jt
  decreasing_by
    simp_wf
    have := le_deduplicateRun it (vars.set it vars[jt]) (jt + 1) (by omega)
    rw [deduplicateRun_length, List.length_set]
    omega

/-- `StaticEnv::deduplicate`: the loop from `it = jt = begin`, then `vars.erase(it, end)`. -/
def StaticEnv.deduplicate (env : StaticEnv Symbol) : StaticEnv Symbol :=
  ⟨(deduplicateLoop env.vars 0 0 le_rfl).1.take (deduplicateLoop env.vars 0 0 le_rfl).2⟩

/-- `StaticEnv::find`: `std::lower_bound` for the key `(name, 0)`, then a check that the pair
found has symbol `name`. The iterator is an index into `vars`, `vars.end()` being
`vars.length`. -/
def StaticEnv.find (env : StaticEnv Symbol) (name : Symbol) : Nat :=
  if h : lowerBound pairLt env.vars (name, 0) < env.vars.length then
    if env.vars[lowerBound pairLt env.vars (name, 0)].1 = name then
      lowerBound pairLt env.vars (name, 0)
    else env.vars.length
  else env.vars.length

end Members

section Deduplicate

/-! What `deduplicate` computes: the last pair of every run of equal symbols. The in-place loop
writes at `it` and reads at `jt > it`, so it never overwrites a pair it has still to read; the
refinement below says so. -/

variable {Symbol : Type} [LinearOrder Symbol]

/-- The last pair of every run of equal symbols of `cand :: ps`, `cand` being the last pair
seen of the current run. -/
def lastOfRunsFrom (cand : Symbol × Displacement) :
    List (Symbol × Displacement) → List (Symbol × Displacement)
  | [] => [cand]
  | p :: ps => if cand.1 = p.1 then lastOfRunsFrom p ps else cand :: lastOfRunsFrom p ps

def lastOfRuns : List (Symbol × Displacement) → List (Symbol × Displacement)
  | [] => []
  | p :: ps => lastOfRunsFrom p ps

def absorbRun (cand : Symbol × Displacement) :
    List (Symbol × Displacement) → (Symbol × Displacement) × List (Symbol × Displacement)
  | [] => (cand, [])
  | p :: ps => if cand.1 = p.1 then absorbRun p ps else (cand, p :: ps)

theorem lastOfRunsFrom_eq_absorbRun (cand : Symbol × Displacement)
    (ps : List (Symbol × Displacement)) :
    lastOfRunsFrom cand ps = (absorbRun cand ps).1 :: lastOfRuns (absorbRun cand ps).2 := by
  induction ps generalizing cand with
  | nil => rfl
  | cons p ps ih =>
    by_cases h : cand.1 = p.1
    · simp only [lastOfRunsFrom, absorbRun, if_pos h, ih]
    · simp only [lastOfRunsFrom, absorbRun, if_neg h, lastOfRuns]

theorem take_set_self {α : Type} (l : List α) (i : Nat) (a : α) :
    (l.set i a).take i = l.take i := by
  rw [List.set_take, List.set_eq_of_length_le (List.length_take_le _ _)]

theorem StaticEnv.deduplicateRun_spec (it : Nat) (vars : List (Symbol × Displacement)) (jt : Nat)
    (hit : it < jt) {cand : Symbol × Displacement} (hc : vars[it]? = some cand) :
    (deduplicateRun it vars jt hit).1.take it = vars.take it ∧
      (deduplicateRun it vars jt hit).1[it]? = some (absorbRun cand (vars.drop jt)).1 ∧
      (deduplicateRun it vars jt hit).1.drop (deduplicateRun it vars jt hit).2 =
        (absorbRun cand (vars.drop jt)).2 := by
  induction vars, jt, hit using @StaticEnv.deduplicateRun.induct Symbol _ it generalizing cand with
  | case1 vars jt hit h heq ih =>
    have hi : it < vars.length := by omega
    obtain rfl : vars[it] = cand := by simpa [List.getElem?_eq_getElem hi] using hc
    obtain ⟨h1, h2, h3⟩ := ih (List.getElem?_set_self (by omega))
    rw [deduplicateRun, dif_pos h, if_pos heq, List.drop_eq_getElem_cons h, absorbRun, if_pos heq]
    rw [take_set_self, List.drop_set_of_lt _ _ (by omega)] at *
    exact ⟨h1, h2, h3⟩
  | case2 vars jt hit h heq =>
    have hi : it < vars.length := by omega
    obtain rfl : vars[it] = cand := by simpa [List.getElem?_eq_getElem hi] using hc
    rw [deduplicateRun, dif_pos h, if_neg heq, List.drop_eq_getElem_cons h, absorbRun, if_neg heq]
    exact ⟨rfl, hc, rfl⟩
  | case3 vars jt hit h =>
    rw [deduplicateRun, dif_neg h, List.drop_of_length_le (by omega), absorbRun]
    exact ⟨rfl, hc, rfl⟩

theorem StaticEnv.deduplicateLoop_spec (vars : List (Symbol × Displacement)) (it jt : Nat)
    (hit : it ≤ jt) :
    (deduplicateLoop vars it jt hit).1.take (deduplicateLoop vars it jt hit).2 =
      vars.take it ++ lastOfRuns (vars.drop jt) := by
  induction vars, it, jt, hit using @StaticEnv.deduplicateLoop.induct Symbol _ with
  | case1 vars it jt hit h ih =>
    obtain ⟨h1, h2, h3⟩ := deduplicateRun_spec it (vars.set it vars[jt]) (jt + 1) (by omega)
      (List.getElem?_set_self (by omega))
    rw [deduplicateLoop, dif_pos h, ih, List.take_succ, h1, h2, h3, take_set_self,
      List.drop_set_of_lt _ _ (by omega), List.drop_eq_getElem_cons h, lastOfRuns,
      lastOfRunsFrom_eq_absorbRun]
    simp
  | case2 vars it jt hit h =>
    rw [deduplicateLoop, dif_neg h, List.drop_of_length_le (by omega)]
    simp [lastOfRuns]

/-- `deduplicate` keeps the last pair of every run of equal symbols, on every vector. -/
theorem StaticEnv.deduplicate_eq (env : StaticEnv Symbol) :
    env.deduplicate = ⟨lastOfRuns env.vars⟩ := by
  rw [deduplicate, deduplicateLoop_spec]
  rfl

/-- On an unsorted vector a symbol can keep several pairs, one per run. -/
example : (StaticEnv.deduplicate ⟨[(1, 4), (1, 2), (2, 0), (1, 7)]⟩ : StaticEnv Nat) =
    ⟨[(1, 2), (2, 0), (1, 7)]⟩ := by
  rw [StaticEnv.deduplicate_eq]
  decide

end Deduplicate

section Sorted

variable {Symbol : Type} [LinearOrder Symbol]

/-- `vars` is sorted by symbol, duplicates allowed: the order `sort` establishes and `find`
needs. -/
def StaticEnv.Sorted (env : StaticEnv Symbol) : Prop :=
  env.vars.Pairwise fun a b => a.1 ≤ b.1

instance (env : StaticEnv Symbol) : Decidable env.Sorted :=
  inferInstanceAs (Decidable (env.vars.Pairwise _))

/-- `r` holds, in strictly increasing order of symbols, exactly the last pair of every symbol
of `env`: its pairs with symbol `s` are the last pair of `env` with symbol `s`, if any. -/
structure StaticEnv.KeepsLast (r env : StaticEnv Symbol) : Prop where
  increasing : r.vars.Pairwise fun a b => a.1 < b.1
  last : ∀ s, r.vars.filter (fun p => p.1 == s) =
    (env.vars.filter fun p => p.1 == s).getLast?.toList

theorem lastOfRunsFrom_sublist (cand : Symbol × Displacement) (ps : List (Symbol × Displacement)) :
    List.Sublist (lastOfRunsFrom cand ps) (cand :: ps) := by
  induction ps generalizing cand with
  | nil => exact List.Sublist.refl _
  | cons p ps ih =>
    by_cases h : cand.1 = p.1
    · simpa only [lastOfRunsFrom, if_pos h] using (ih p).cons cand
    · simpa only [lastOfRunsFrom, if_neg h] using (ih p).cons₂ cand

theorem lt_of_run_end {cand p x : Symbol × Displacement} {ps : List (Symbol × Displacement)}
    (hs : (cand :: p :: ps).Pairwise fun a b => a.1 ≤ b.1) (h : cand.1 ≠ p.1) (hx : x ∈ p :: ps) :
    cand.1 < x.1 := by
  have hcp : cand.1 < p.1 := lt_of_le_of_ne (List.rel_of_pairwise_cons hs (.head _)) h
  rcases List.mem_cons.1 hx with rfl | hx
  · exact hcp
  · exact lt_of_lt_of_le hcp (List.rel_of_pairwise_cons hs.of_cons hx)

theorem lastOfRunsFrom_increasing {cand : Symbol × Displacement} {ps : List (Symbol × Displacement)}
    (hs : (cand :: ps).Pairwise fun a b => a.1 ≤ b.1) :
    (lastOfRunsFrom cand ps).Pairwise fun a b => a.1 < b.1 := by
  induction ps generalizing cand with
  | nil => exact List.pairwise_singleton _ _
  | cons p ps ih =>
    have hps := hs.of_cons
    by_cases h : cand.1 = p.1
    · simpa only [lastOfRunsFrom, if_pos h] using ih hps
    · rw [lastOfRunsFrom, if_neg h, List.pairwise_cons]
      exact ⟨fun x hx => lt_of_run_end hs h ((lastOfRunsFrom_sublist p ps).subset hx), ih hps⟩

theorem lastOfRunsFrom_filter {cand : Symbol × Displacement} {ps : List (Symbol × Displacement)}
    (hs : (cand :: ps).Pairwise fun a b => a.1 ≤ b.1) (s : Symbol) :
    (lastOfRunsFrom cand ps).filter (fun p => p.1 == s) =
      ((cand :: ps).filter fun p => p.1 == s).getLast?.toList := by
  induction ps generalizing cand with
  | nil => by_cases hc : cand.1 = s <;> simp [lastOfRunsFrom, hc]
  | cons p ps ih =>
    have hps := hs.of_cons
    by_cases h : cand.1 = p.1
    · rw [lastOfRunsFrom, if_pos h, ih hps]
      by_cases hc : cand.1 = s
      · simp [List.filter_cons, hc, ← h]
      · simp [List.filter_cons, hc]
    · rw [lastOfRunsFrom, if_neg h]
      by_cases hc : cand.1 = s
      · have hnone : ((p :: ps).filter fun q => q.1 == s) = [] :=
          List.filter_eq_nil_iff.2 fun x hx => by simpa [← hc] using ne_of_gt (lt_of_run_end hs h hx)
        have hkept : ((lastOfRunsFrom p ps).filter fun q => q.1 == s) = [] := by
          rw [ih hps, hnone]
          rfl
        simp only [List.filter_cons, hc, beq_self_eq_true, if_true, hkept, hnone]
        rfl
      · simp only [List.filter_cons, hc, beq_iff_eq, if_false, ih hps]

/-- `deduplicate` keeps the last pair of every symbol of a sorted vector, in strictly
increasing order. -/
theorem StaticEnv.deduplicate_keepsLast {env : StaticEnv Symbol} (hs : env.Sorted) :
    env.deduplicate.KeepsLast env := by
  rw [deduplicate_eq]
  rcases env with ⟨_ | ⟨p, ps⟩⟩
  · exact ⟨List.Pairwise.nil, fun s => rfl⟩
  · exact ⟨lastOfRunsFrom_increasing hs, lastOfRunsFrom_filter hs⟩

theorem sortLe_trans (a b c : Symbol × Displacement) (hab : (!decide (b.1 < a.1)) = true)
    (hbc : (!decide (c.1 < b.1)) = true) : (!decide (c.1 < a.1)) = true := by
  simp only [Bool.not_eq_true', decide_eq_false_iff_not, not_lt] at *
  exact le_trans hab hbc

theorem sortLe_total (a b : Symbol × Displacement) :
    ((!decide (b.1 < a.1)) || !decide (a.1 < b.1)) = true := by
  simpa only [Bool.or_eq_true, Bool.not_eq_true', decide_eq_false_iff_not, not_lt] using
    le_total a.1 b.1

theorem StaticEnv.sort_sorted (env : StaticEnv Symbol) : env.sort.Sorted :=
  (List.sorted_mergeSort sortLe_trans sortLe_total env.vars).imp fun h => by simpa using h

/-- `sort` is stable: the pairs with one symbol keep their order. -/
theorem StaticEnv.sort_filter_symbol (env : StaticEnv Symbol) (s : Symbol) :
    env.sort.vars.filter (fun p => p.1 == s) = env.vars.filter fun p => p.1 == s := by
  have hsame : (env.vars.filter fun p => p.1 == s).Pairwise fun a b => (!decide (b.1 < a.1)) = true :=
    List.pairwise_of_forall_mem_list fun a ha b hb => by
      simp only [List.mem_filter, beq_iff_eq] at ha hb
      simp [ha.2, hb.2]
  have hsub := (List.sublist_mergeSort sortLe_trans sortLe_total hsame
    (List.filter_sublist env.vars)).filter fun p => p.1 == s
  rw [List.filter_filter, List.filter_congr fun _ _ => Bool.and_self _] at hsub
  exact (hsub.eq_of_length ((List.mergeSort_perm _ _).filter _).length_eq.symm).symm

theorem StaticEnv.sort_deduplicate_keepsLast (env : StaticEnv Symbol) :
    env.sort.deduplicate.KeepsLast env :=
  ⟨(deduplicate_keepsLast env.sort_sorted).increasing, fun s => by
    rw [(deduplicate_keepsLast env.sort_sorted).last, sort_filter_symbol]⟩

/-- `sort` then `deduplicate` keeps the last pair of every symbol, in strictly increasing order,
on every vector; `deduplicate` alone does on every sorted one. -/
theorem sort_deduplicate_keeps_last_binding :
    (∀ env : StaticEnv Symbol, env.sort.deduplicate.KeepsLast env) ∧
      ∀ env : StaticEnv Symbol, env.Sorted → env.deduplicate.KeepsLast env :=
  ⟨StaticEnv.sort_deduplicate_keepsLast, fun _ => StaticEnv.deduplicate_keepsLast⟩

theorem sort_deduplicate_keeps_last_binding_sample :
    StaticEnv.Sorted (⟨[(1, 4), (1, 2), (2, 0), (2, 7), (2, 3)]⟩ : StaticEnv Nat) ∧
      StaticEnv.KeepsLast (StaticEnv.deduplicate ⟨[(1, 4), (1, 2), (2, 0), (2, 7), (2, 3)]⟩)
        ⟨[(1, 4), (1, 2), (2, 0), (2, 7), (2, 3)]⟩ :=
  ⟨by decide, sort_deduplicate_keeps_last_binding.2 _ (by decide)⟩

end Sorted

section Lookup

variable {Symbol : Type} [LinearOrder Symbol] {α : Type} {f : α → Symbol} {l : List α}

theorem keyLt_partitioned (hs : l.Pairwise fun a b => f a ≤ f b) (s : Symbol) :
    l.Pairwise fun a b => decide (f b < s) = true → decide (f a < s) = true :=
  hs.imp fun hab hb => by
    simp only [decide_eq_true_eq] at hb ⊢
    exact lt_of_le_of_lt hab hb

theorem findIdx_key_of_lowerBound {s : Symbol}
    (hi : l.findIdx (fun a => !decide (f a < s)) < l.length)
    (heq : f l[l.findIdx fun a => !decide (f a < s)] = s) :
    l.findIdx (fun a => f a == s) = l.findIdx fun a => !decide (f a < s) :=
  (List.findIdx_eq hi).2 ⟨by simpa using heq, fun j hj => by
    have hlt := List.not_of_lt_findIdx hj
    simp only [Bool.not_eq_false', decide_eq_true_eq] at hlt
    simpa using ne_of_lt hlt⟩

theorem findIdx_key_eq_length (hs : l.Pairwise fun a b => f a ≤ f b) {s : Symbol}
    (hne : ∀ hi : l.findIdx (fun a => !decide (f a < s)) < l.length,
      f l[l.findIdx fun a => !decide (f a < s)] ≠ s) :
    l.findIdx (fun a => f a == s) = l.length := by
  refine List.findIdx_eq_length.2 fun x hx => ?_
  obtain ⟨j, hj, rfl⟩ := List.getElem_of_mem hx
  rcases Nat.lt_or_ge j (l.findIdx fun a => !decide (f a < s)) with hlt | hge
  · have hlt := List.not_of_lt_findIdx hlt
    simp only [Bool.not_eq_false', decide_eq_true_eq] at hlt
    simpa using ne_of_lt hlt
  · have hi : l.findIdx (fun a => !decide (f a < s)) < l.length := by omega
    have hle : s ≤ f l[l.findIdx fun a => !decide (f a < s)] := by
      simpa using @List.findIdx_getElem _ (fun a => !decide (f a < s)) l hi
    have hmono : f l[l.findIdx fun a => !decide (f a < s)] ≤ f l[j] := by
      rcases Nat.eq_or_lt_of_le hge with heq | hlt
      · simp only [heq, le_refl]
      · exact List.pairwise_iff_getElem.1 hs _ _ hi hj hlt
    simpa using ne_of_gt (lt_of_lt_of_le (lt_of_le_of_ne hle (hne hi).symm) hmono)

theorem pairLt_key (p : Symbol × Displacement) (name : Symbol) :
    pairLt p (name, 0) = decide (p.1 < name) := by
  have h0 : ¬p.2 < 0 := Nat.not_lt_zero _
  simp [pairLt, h0]

theorem StaticEnv.lowerBound_key {env : StaticEnv Symbol} (hs : env.Sorted) (name : Symbol) :
    lowerBound pairLt env.vars (name, 0) = env.vars.findIdx fun p => !decide (p.1 < name) := by
  rw [lowerBound_eq_findIdx]
  · simp only [pairLt_key]
  · simpa only [pairLt_key] using keyLt_partitioned hs name

/-- On sorted `vars`, `find` returns the first pair with symbol `name`, `vars.end()` when there
is none. -/
theorem StaticEnv.find_eq_findIdx {env : StaticEnv Symbol} (hs : env.Sorted) (name : Symbol) :
    env.find name = env.vars.findIdx fun p => p.1 == name := by
  unfold find
  simp only [lowerBound_key hs]
  split
  · next hi =>
    split
    · next heq => exact (findIdx_key_of_lowerBound hi heq).symm
    · next hne => exact (findIdx_key_eq_length hs fun _ => hne).symm
  · next hi => exact (findIdx_key_eq_length hs fun h => absurd h hi).symm

/-- Inside a run `find` stops at its first pair. -/
example : StaticEnv.find (⟨[(1, 4), (3, 0), (3, 2), (5, 1)]⟩ : StaticEnv Nat) 3 = 1 := by
  rw [StaticEnv.find_eq_findIdx (by decide)]
  decide

end Lookup

structure Formal (Symbol : Type) where
  name : Symbol
  deriving DecidableEq, Repr

structure Formals (Symbol : Type) where
  formals : List (Formal Symbol)
  deriving DecidableEq, Repr

section Formals

variable {Symbol : Type} [LinearOrder Symbol]

/-- `Formals::has`: `std::lower_bound` with `f.name < sym`, then a check of the name found. -/
def Formals.has (fs : Formals Symbol) (arg : Symbol) : Bool :=
  if h : lowerBound (fun f sym => decide (Formal.name f < sym)) fs.formals arg < fs.formals.length
  then fs.formals[lowerBound (fun f sym => decide (Formal.name f < sym)) fs.formals arg].name == arg
  else false

def Formals.Sorted (fs : Formals Symbol) : Prop :=
  fs.formals.Pairwise fun a b => a.name ≤ b.name

instance (fs : Formals Symbol) : Decidable fs.Sorted :=
  inferInstanceAs (Decidable (fs.formals.Pairwise _))

/-- On sorted formals, `has` finds a formal exactly when one has the name. -/
theorem Formals.has_iff {fs : Formals Symbol} (hs : fs.Sorted) (arg : Symbol) :
    fs.has arg = true ↔ ∃ f ∈ fs.formals, f.name = arg := by
  have hmem : (∃ f ∈ fs.formals, f.name = arg) ↔
      fs.formals.findIdx (fun f => f.name == arg) < fs.formals.length := by
    simp
  rw [hmem]
  unfold has
  rw [lowerBound_eq_findIdx (keyLt_partitioned hs arg)]
  split
  · next hi =>
    by_cases heq : fs.formals[fs.formals.findIdx fun f => !decide (f.name < arg)].name = arg
    · simpa [heq, findIdx_key_of_lowerBound hi heq] using hi
    · simp [heq, findIdx_key_eq_length hs fun _ => heq]
  · next hi => simp [findIdx_key_eq_length hs fun h => absurd h hi]

end Formals

/-- On sorted vectors `find` returns the first pair with the symbol, `vars.end()` when there is
none, and on sorted formals `has` holds exactly when a formal has the name. -/
theorem find_and_has_agree_with_membership {Symbol : Type} [LinearOrder Symbol] :
    (∀ env : StaticEnv Symbol, env.Sorted →
        ∀ name, env.find name = env.vars.findIdx fun p => p.1 == name) ∧
      ∀ fs : Formals Symbol, fs.Sorted → ∀ arg, fs.has arg = true ↔ ∃ f ∈ fs.formals, f.name = arg :=
  ⟨fun _ hs => StaticEnv.find_eq_findIdx hs, fun _ hs => Formals.has_iff hs⟩

theorem find_and_has_agree_with_membership_sample :
    StaticEnv.Sorted (⟨[(1, 4), (3, 0), (3, 2), (5, 1)]⟩ : StaticEnv Nat) ∧
      StaticEnv.find ⟨[(1, 4), (3, 0), (3, 2), (5, 1)]⟩ 3 =
        List.findIdx (fun p => p.1 == 3) [((1 : Nat), (4 : Displacement)), (3, 0), (3, 2), (5, 1)] ∧
      Formals.Sorted (⟨[⟨1⟩, ⟨4⟩]⟩ : Formals Nat) ∧
      (Formals.has ⟨[⟨1⟩, ⟨4⟩]⟩ 4 = true ↔ ∃ f ∈ [(⟨1⟩ : Formal Nat), ⟨4⟩], f.name = 4) :=
  ⟨by decide, find_and_has_agree_with_membership.1 _ (by decide) 3, by decide,
    find_and_has_agree_with_membership.2 _ (by decide) 4⟩

section Shadowing

variable {Symbol : Type} [LinearOrder Symbol]

/-- What a static environment is for: the displacement of a variable, a later binding of a name
shadowing the earlier ones. -/
def StaticEnv.lookup (env : StaticEnv Symbol) (name : Symbol) : Option Displacement :=
  (env.vars.filter fun p => p.1 == name).getLast?.map Prod.snd

/-- How `find`'s iterator is read: `i->second`, none at `vars.end()`. -/
def StaticEnv.findDisplacement (env : StaticEnv Symbol) (name : Symbol) : Option Displacement :=
  env.vars[env.find name]?.map Prod.snd

theorem getElem?_findIdx {α : Type} (l : List α) (p : α → Bool) : l[l.findIdx p]? = l.find? p := by
  induction l with
  | nil => rfl
  | cons a l ih => cases h : p a <;> simp [List.findIdx_cons, h, ih]

/-- After `sort` and `deduplicate`, looking a name up through `find` gives its last binding. -/
theorem StaticEnv.findDisplacement_sort_deduplicate (env : StaticEnv Symbol) (name : Symbol) :
    env.sort.deduplicate.findDisplacement name = env.lookup name := by
  have hk := env.sort_deduplicate_keepsLast
  have hs : env.sort.deduplicate.Sorted := hk.increasing.imp le_of_lt
  rw [findDisplacement, find_eq_findIdx hs, getElem?_findIdx, ← List.filter_head?, hk.last, lookup]
  cases (env.vars.filter fun p => p.1 == name).getLast? <;> rfl

end Shadowing

end NixRemoteStore
