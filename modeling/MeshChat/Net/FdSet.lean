import Mathlib.Data.Finset.Erase
import Mathlib.Data.Finset.Insert
import Mathlib.Order.Bounds.Basic

/-! # The set of open sockets (`main.c`)

    `fdset` holds the listening socket and those of the clients, and `maxfd` is the
    greatest of them. `fdset_clr` looks for the next one by counting down.

    * `scanFrom`: the loop of `fdset_clr`; `none` is a read below index 0.
    * `fdsetAdd`, `fdsetClr`: the two functions; each runs under `fdset_lock`.
    * `FdTable.Exact`: the listening socket is a member and `maxfd` is the greatest.
    * `fdset_exact`: so it stays, whatever is added and cleared.
-/

namespace MeshChat

/-- `FD_SETSIZE`. -/
def fdSetsize : Nat := 1024

/-! ## The two functions -/

/-- `fdset` and `maxfd`. -/
structure FdTable where
  fdset : Finset Nat
  maxfd : Nat
  deriving DecidableEq

/-- `while (!FD_ISSET(maxfd, &fdset)) maxfd--`, from this index on. -/
def scanFrom (fdset : Finset Nat) : Nat → Option Nat
  -- below index 0 the macro would read outside of the `fd_set`
  | 0 => if 0 ∈ fdset then some 0 else none
  | n + 1 => if n + 1 ∈ fdset then some (n + 1) else scanFrom fdset n

/-- `fdset_add`. -/
def fdsetAdd (fd : Nat) (t : FdTable) : FdTable where
  fdset := insert fd t.fdset
  maxfd := if t.maxfd < fd then fd else t.maxfd

/-- `fdset_clr`. -/
def fdsetClr (fd : Nat) (t : FdTable) : Option FdTable :=
  let fdset := t.fdset.erase fd
  -- `FD_CLR` comes first, so the scan starts at an index that was just cleared
  if fd = t.maxfd then
    match scanFrom fdset t.maxfd with
    | some maxfd => some ⟨fdset, maxfd⟩
    | none => none
  else some ⟨fdset, t.maxfd⟩

/-- What `main` starts with. -/
def FdTable.init (listenFd : Nat) : FdTable := ⟨{listenFd}, listenFd⟩

inductive FdOp where
  | add (fd : Nat)
  | clr (fd : Nat)
  deriving DecidableEq

def FdOp.fd : FdOp → Nat
  | add fd => fd
  | clr fd => fd

def FdOp.run (t : FdTable) : FdOp → Option FdTable
  | add fd => some (fdsetAdd fd t)
  | clr fd => fdsetClr fd t

/-- Calls one after the other. -/
def runFdOps : List FdOp → FdTable → Option FdTable
  | [], t => some t
  | op :: ops, t =>
    match op.run t with
    | some t' => runFdOps ops t'
    | none => none

/-! ## The invariant -/

/-- The listening socket is there, `maxfd` is the greatest member, and every index is inside
    the `fd_set`. -/
structure FdTable.Exact (listenFd : Nat) (t : FdTable) : Prop where
  listens : listenFd ∈ t.fdset
  greatest : IsGreatest (t.fdset : Set Nat) t.maxfd
  inside : ∀ fd ∈ t.fdset, fd < fdSetsize

/-- The loop ends at the greatest member that is not above its start. -/
theorem scanFrom_greatest {fdset : Finset Nat} {n k : Nat} (hk : k ∈ fdset) (hkn : k ≤ n) :
    ∃ m, scanFrom fdset n = some m ∧ m ≤ n ∧ m ∈ fdset ∧ ∀ fd ∈ fdset, fd ≤ n → fd ≤ m := by
  -- over the start of the scan; `k` is what keeps it from running below 0
  induction n with
  | zero =>
    obtain rfl : k = 0 := Nat.le_zero.mp hkn
    exact ⟨0, if_pos hk, le_rfl, hk, fun fd _ hfd => hfd⟩
  | succ n ih =>
    by_cases hmem : n + 1 ∈ fdset
    · exact ⟨n + 1, if_pos hmem, le_rfl, hmem, fun fd _ hfd => hfd⟩
    -- the index is not a member, and so none that is above `n` is
    have hbelow : ∀ fd ∈ fdset, fd ≤ n + 1 → fd ≤ n := by
      intro fd hfd hle
      have hne : fd ≠ n + 1 := fun heq => hmem (heq ▸ hfd)
      omega
    obtain ⟨m, hscan, hmn, hm, hgreatest⟩ := ih (hbelow k hk hkn)
    refine ⟨m, ?_, by omega, hm, fun fd hfd hle => hgreatest fd hfd (hbelow fd hfd hle)⟩
    rw [scanFrom, if_neg hmem]
    exact hscan

namespace FdTable.Exact

variable {listenFd fd : Nat} {t : FdTable}

theorem start (hlisten : listenFd < fdSetsize) : Exact listenFd (FdTable.init listenFd) where
  listens := Finset.mem_singleton_self listenFd
  greatest := by
    show IsGreatest ((({listenFd} : Finset Nat)) : Set Nat) listenFd
    rw [Finset.coe_singleton]
    exact isGreatest_singleton
  inside := by
    intro fd hfd
    rw [Finset.mem_singleton.mp hfd]
    exact hlisten

theorem add (h : Exact listenFd t) (hfd : fd < fdSetsize) : Exact listenFd (fdsetAdd fd t) where
  listens := Finset.mem_insert_of_mem h.listens
  greatest := by
    have hmax := h.greatest.insert fd
    rw [← Finset.coe_insert] at hmax
    have hsup : (if t.maxfd < fd then fd else t.maxfd) = fd ⊔ t.maxfd := by
      split
      · rw [max_eq_left (by omega)]
      · rw [max_eq_right (by omega)]
    show IsGreatest _ (if t.maxfd < fd then fd else t.maxfd)
    rw [hsup]
    exact hmax
  inside := by
    intro fd' hmem
    rcases Finset.mem_insert.mp hmem with rfl | hmem
    · exact hfd
    · exact h.inside fd' hmem

/-- The loop finds a member, at the latest the listening socket. -/
theorem scan (h : Exact listenFd t) (hne : fd ≠ listenFd) :
    ∃ m, scanFrom (t.fdset.erase fd) t.maxfd = some m ∧ listenFd ≤ m ∧ m ≤ t.maxfd ∧
      IsGreatest ((t.fdset.erase fd : Finset Nat) : Set Nat) m := by
  have hlisten : listenFd ∈ t.fdset.erase fd := Finset.mem_erase.mpr ⟨hne.symm, h.listens⟩
  have hmax : ∀ fd' ∈ t.fdset, fd' ≤ t.maxfd := fun fd' hfd' => h.greatest.2 hfd'
  obtain ⟨m, hscan, hm, hmem, hgreatest⟩ := scanFrom_greatest hlisten (hmax _ h.listens)
  refine ⟨m, hscan, hgreatest _ hlisten (hmax _ h.listens), hm, hmem, ?_⟩
  intro fd' hfd'
  exact hgreatest fd' hfd' (hmax fd' (Finset.mem_of_mem_erase hfd'))

theorem clr (h : Exact listenFd t) (hne : fd ≠ listenFd) :
    ∃ t', fdsetClr fd t = some t' ∧ Exact listenFd t' := by
  have hlisten : listenFd ∈ t.fdset.erase fd := Finset.mem_erase.mpr ⟨hne.symm, h.listens⟩
  have hinside : ∀ fd' ∈ t.fdset.erase fd, fd' < fdSetsize :=
    fun fd' hfd' => h.inside fd' (Finset.mem_of_mem_erase hfd')
  by_cases heq : fd = t.maxfd
  · obtain ⟨m, hscan, -, -, hgreatest⟩ := h.scan hne
    refine ⟨⟨t.fdset.erase fd, m⟩, ?_, hlisten, hgreatest, hinside⟩
    rw [fdsetClr, if_pos heq, hscan]
  · -- the greatest member is still there
    refine ⟨⟨t.fdset.erase fd, t.maxfd⟩, if_neg heq, hlisten, ⟨?_, ?_⟩, hinside⟩
    · exact Finset.mem_erase.mpr ⟨fun h => heq h.symm, h.greatest.1⟩
    · intro fd' hfd'
      exact h.greatest.2 (Finset.mem_of_mem_erase hfd')

theorem step (h : Exact listenFd t) {op : FdOp} (hfd : op.fd < fdSetsize)
    (hne : op ≠ .clr listenFd) : ∃ t', op.run t = some t' ∧ Exact listenFd t' := by
  cases op with
  | add fd => exact ⟨_, rfl, h.add hfd⟩
  | clr fd => exact h.clr fun heq => hne (congrArg FdOp.clr heq)

/-- Over a whole sequence of calls. -/
theorem run {ops : List FdOp} (h : Exact listenFd t) (hfd : ∀ op ∈ ops, op.fd < fdSetsize)
    (hne : .clr listenFd ∉ ops) : ∃ t', runFdOps ops t = some t' ∧ Exact listenFd t' := by
  -- the other calls see the table that the first one leaves
  induction ops generalizing t with
  | nil => exact ⟨t, rfl, h⟩
  | cons op ops ih =>
    have hop : op ≠ .clr listenFd := fun heq => hne (heq ▸ List.mem_cons_self ..)
    obtain ⟨t₁, hrun, h₁⟩ := h.step (hfd op (List.mem_cons_self ..)) hop
    obtain ⟨t', hrest, h'⟩ := ih h₁ (fun op' hop' => hfd op' (List.mem_cons_of_mem _ hop'))
      fun hmem => hne (List.mem_cons_of_mem _ hmem)
    refine ⟨t', ?_, h'⟩
    rw [runFdOps, hrun]
    exact hrest

end FdTable.Exact

/-- **`maxfd` is exact and the scan is safe.** For every listening socket and every sequence of
    additions and clears of descriptors below `FD_SETSIZE` that never clears the listening socket:
    no call reads below index 0, `maxfd` is the greatest member of `fdset`, the listening socket
    is a member, and the loop of the next `fdset_clr` ends at an index that is not below it. -/
theorem fdset_exact {listenFd : Nat} {ops : List FdOp} (hlisten : listenFd < fdSetsize)
    (hfd : ∀ op ∈ ops, op.fd < fdSetsize) (hne : .clr listenFd ∉ ops) :
    ∃ t, runFdOps ops (FdTable.init listenFd) = some t ∧ t.Exact listenFd ∧
      ∀ fd, fd ≠ listenFd → ∃ m, scanFrom (t.fdset.erase fd) t.maxfd = some m ∧ listenFd ≤ m := by
  obtain ⟨t, hrun, hexact⟩ := (FdTable.Exact.start hlisten).run hfd hne
  refine ⟨t, hrun, hexact, fun fd hfd => ?_⟩
  obtain ⟨m, hscan, hm, -, -⟩ := hexact.scan hfd
  exact ⟨m, hscan, hm⟩

/-- Sockets 5 and 7 are opened, and 7 is closed twice. -/
theorem fdset_exact_double_close :
    ∃ t, runFdOps [.add 5, .add 7, .clr 7, .clr 7] (FdTable.init 3) = some t ∧ t.Exact 3 ∧
      ∀ fd, fd ≠ 3 → ∃ m, scanFrom (t.fdset.erase fd) t.maxfd = some m ∧ 3 ≤ m :=
  fdset_exact (by decide) (by decide) (by decide)

end MeshChat
