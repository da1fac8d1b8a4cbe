import HostifCircBuf.Instance

/-! The lock byte of one queue under both processors, each running lock rounds from its
main context and from interrupt handlers, one `HOSTIF_RD8` or `HOSTIF_WR8` a step. -/
namespace HostifCircBuf

/-- Where a context stands in a round: outside, at the loop's read, at its write,
returned from `circbuf_lock`, or past `circbuf_unlock`'s write. -/
inductive Pc where
  | idle | read | write | critical | enable
  deriving DecidableEq, Repr

/-- A processor's interrupt flag and its contexts, the running one first. -/
structure CpuState where
  irqOn : Bool
  contexts : List Pc
  deriving DecidableEq, Repr

structure LockState where
  pcp : CpuState
  host : CpuState
  lockByte : UInt8
  deriving DecidableEq, Repr

def LockState.cpu (s : LockState) : Cpu → CpuState
  | .pcp => s.pcp
  | .host => s.host

def LockState.set (s : LockState) : Cpu → CpuState → LockState
  | .pcp, p => { s with pcp := p }
  | .host, p => { s with host := p }

/-- One step of `c`'s running context with `b` in the lock byte. After `HOSTIF_WR8`
the `continue` tests the stale `lockValue` and goes round to read again. -/
def runStep (shared : Bool) (c : Cpu) (p : CpuState) (b : UInt8) : CpuState × UInt8 :=
  match p.contexts with
  | [] => (p, b)
  | .idle :: rest => (⟨false, (if shared then .read else .critical) :: rest⟩, b)
  | .read :: rest =>
    (⟨p.irqOn, (if b = circbufHostifUnlock then .write
      else if b = c.lockValue then .critical else .read) :: rest⟩, b)
  | .write :: rest => (⟨p.irqOn, .read :: rest⟩, c.lockValue)
  | .critical :: rest => (⟨p.irqOn, .enable :: rest⟩, if shared then circbufHostifUnlock else b)
  | .enable :: rest => (⟨true, .idle :: rest⟩, b)

/-- An interrupt handler preempts the running context, if interrupts are on. -/
def CpuState.interrupt (p : CpuState) : CpuState :=
  if p.irqOn then { p with contexts := .idle :: p.contexts } else p

/-- The running handler, outside any round, returns to the context it preempted. -/
def CpuState.reti (p : CpuState) : CpuState :=
  match p.contexts with
  | .idle :: q :: rest => { p with contexts := q :: rest }
  | _ => p

inductive Act where
  | run (c : Cpu)
  | interrupt (c : Cpu)
  | reti (c : Cpu)
  deriving DecidableEq, Repr

@[simp] theorem LockState.cpu_set_self (s : LockState) (c : Cpu) (p : CpuState) :
    (s.set c p).cpu c = p := by
  cases c <;> rfl

@[simp] theorem LockState.cpu_set_ne (s : LockState) {c d : Cpu} (p : CpuState) (h : d ≠ c) :
    (s.set c p).cpu d = s.cpu d := by
  cases c <;> cases d <;> first | rfl | exact absurd rfl h

@[simp] theorem LockState.lockByte_set (s : LockState) (c : Cpu) (p : CpuState) :
    (s.set c p).lockByte = s.lockByte := by
  cases c <;> rfl

@[simp] theorem LockState.cpu_with_lockByte (s : LockState) (b : UInt8) (c : Cpu) :
    ({ s with lockByte := b } : LockState).cpu c = s.cpu c := by
  cases c <;> rfl

def LockState.next (shared : Bool) (s : LockState) : Act → LockState
  | .run c =>
    let r := runStep shared c (s.cpu c) s.lockByte
    { s.set c r.1 with lockByte := r.2 }
  | .interrupt c => s.set c (s.cpu c).interrupt
  | .reti c => s.set c (s.cpu c).reti

def LockState.run (shared : Bool) (s : LockState) (acts : List Act) : LockState :=
  acts.foldl (LockState.next shared) s

/-- Both main contexts outside a round, the byte as `circbuf_allocBuffer` left it. -/
def LockState.init : LockState :=
  ⟨⟨true, [.idle]⟩, ⟨true, [.idle]⟩, circbufHostifUnlock⟩

inductive LockReachable (shared : Bool) : LockState → Prop
  | init : LockReachable shared LockState.init
  | step {s : LockState} (a : Act) :
      LockReachable shared s → LockReachable shared (s.next shared a)

theorem LockReachable.run {shared : Bool} {s : LockState} (h : LockReachable shared s)
    (acts : List Act) : LockReachable shared (s.run shared acts) := by
  induction acts generalizing s with
  | nil => exact h
  | cons a acts ih => exact ih (.step a h)

def LockState.inCritical (s : LockState) : Nat :=
  s.pcp.contexts.count .critical + s.host.contexts.count .critical

/-- No reachable state has two contexts inside the critical section at once. -/
def MutualExclusion (shared : Bool) : Prop :=
  ∀ s, LockReachable shared s → s.inCritical ≤ 1

/-- Both processors read `CIRCBUF_HOSTIF_UNLOCK`, and each in turn writes, reads back
its own value and returns from `circbuf_lock`. -/
theorem lock_race : ¬ MutualExclusion true := fun h => by
  have := h _ (LockReachable.init.run [.run .pcp, .run .host, .run .pcp, .run .host,
    .run .pcp, .run .pcp, .run .host, .run .host])
  revert this
  decide

/-- Only the running context can be inside a round, and interrupts are on exactly while
it is outside one. -/
def Masked (p : CpuState) : Prop :=
  ∃ q rest, p.contexts = q :: rest ∧ (∀ r ∈ rest, r = .idle) ∧ (p.irqOn = true ↔ q = .idle)

theorem masked_runStep {p : CpuState} (shared : Bool) (c : Cpu) (b : UInt8) (hp : Masked p) :
    Masked (runStep shared c p b).1 := by
  obtain ⟨q, rest, hc, hrest, hirq⟩ := hp
  cases q <;> simp only [runStep, hc] <;> refine ⟨_, rest, rfl, hrest, ?_⟩ <;>
    (try split_ifs) <;> simp_all

theorem masked_interrupt {p : CpuState} (hp : Masked p) : Masked p.interrupt := by
  obtain ⟨q, rest, hc, hrest, hirq⟩ := hp
  unfold CpuState.interrupt
  split_ifs with hon
  · exact ⟨.idle, q :: rest, by rw [hc], by simpa [hirq.mp hon] using hrest, by simp [hon]⟩
  · exact ⟨q, rest, hc, hrest, hirq⟩

theorem masked_reti {p : CpuState} (hp : Masked p) : Masked p.reti := by
  obtain ⟨q, rest, hc, hrest, hirq⟩ := hp
  unfold CpuState.reti
  rw [hc]
  split
  · rename_i q' rest' he
    obtain ⟨rfl, rfl⟩ := List.cons.inj he
    exact ⟨q', rest', rfl, fun r hr => hrest r (.tail _ hr),
      by simpa [hrest q' (.head _)] using hirq⟩
  · exact ⟨q, rest, hc, hrest, hirq⟩

theorem masked_set {s : LockState} {c : Cpu} {p : CpuState} (hs : ∀ d, Masked (s.cpu d))
    (hp : Masked p) (d : Cpu) : Masked ((s.set c p).cpu d) := by
  by_cases hdc : d = c
  · subst hdc
    simpa using hp
  · simpa [hdc] using hs d

theorem masked_reachable {shared : Bool} {s : LockState} (h : LockReachable shared s) :
    ∀ c, Masked (s.cpu c) := by
  induction h with
  | init => intro c; cases c <;> exact ⟨.idle, [], rfl, by simp, ⟨fun _ => rfl, fun _ => rfl⟩⟩
  | step a _ ih =>
    cases a with
    | run c =>
      simpa [LockState.next] using masked_set ih (masked_runStep shared c _ (ih c))
    | interrupt c => exact masked_set ih (masked_interrupt (ih c))
    | reti c => exact masked_set ih (masked_reti (ih c))

/-- On each processor at most one context is inside the critical section, with
interrupts off meanwhile: all the exclusion a local queue has. -/
theorem interrupt_masking_excludes {shared : Bool} {s : LockState}
    (h : LockReachable shared s) (c : Cpu) :
    (s.cpu c).contexts.count .critical ≤ 1 ∧
      (Pc.critical ∈ (s.cpu c).contexts → (s.cpu c).irqOn = false) := by
  obtain ⟨q, rest, hc, hrest, hirq⟩ := masked_reachable h c
  have h0 : rest.count .critical = 0 :=
    List.count_eq_zero.mpr fun hm => by simpa using hrest _ hm
  rw [hc, List.count_cons, h0]
  refine ⟨by split <;> simp, fun hm => ?_⟩
  have hq : q = .critical := by
    rcases List.mem_cons.mp hm with h | h
    · exact h.symm
    · simpa using hrest _ h
  subst hq
  simpa using hirq

theorem interrupt_masking_excludes_pcp :
    let s := LockState.init.run true [.run .pcp, .run .pcp, .run .pcp, .run .pcp]
    (s.cpu .pcp).contexts.count .critical ≤ 1 ∧ (s.cpu .pcp).irqOn = false :=
  let h := interrupt_masking_excludes (LockReachable.init.run
    [.run .pcp, .run .pcp, .run .pcp, .run .pcp]) .pcp
  ⟨h.1, h.2 (by decide)⟩

/-- A step that changes the lock byte is a step of some processor `c`, writing
`CIRCBUF_HOSTIF_UNLOCK` or `c`'s own `CIRCBUF_HOSTIF_LOCK`. -/
theorem next_lockByte (shared : Bool) (s : LockState) (a : Act) :
    (s.next shared a).lockByte = s.lockByte ∨ ∃ c, a = .run c ∧
      ((s.next shared a).lockByte = circbufHostifUnlock ∨
        (s.next shared a).lockByte = c.lockValue) := by
  cases a with
  | run c =>
    simp only [LockState.next]
    unfold runStep
    split <;> (try split_ifs) <;> simp
  | interrupt | reti => simp [LockState.next]

theorem lockByte_valid {shared : Bool} {s : LockState} (h : LockReachable shared s) :
    s.lockByte = circbufHostifUnlock ∨ ∃ c : Cpu, s.lockByte = c.lockValue := by
  induction h with
  | init => exact .inl rfl
  | @step s a _ ih =>
    rcases next_lockByte shared s a with he | ⟨c, -, he | he⟩
    · exact he ▸ ih
    · exact .inl he
    · exact .inr ⟨c, he⟩

/-- A processor's value is in the lock byte only while its running context is in the
loop of `circbuf_lock` or inside the critical section. -/
def NoStaleLock (s : LockState) : Prop :=
  ∀ c, s.lockByte = c.lockValue →
    (s.cpu c).contexts.head? = some .read ∨ (s.cpu c).contexts.head? = some .critical

theorem noStaleLock_next {s : LockState} (hm : ∀ c, Masked (s.cpu c)) (hs : NoStaleLock s)
    (a : Act) : NoStaleLock (s.next true a) := by
  intro c hb
  obtain ⟨q, rest, hc, -, hirq⟩ := hm c
  have hfree : q ≠ .read → q ≠ .critical → s.lockByte ≠ c.lockValue := fun h1 h2 he => by
    rcases hs c he with h | h <;> simp [hc, h1, h2] at h
  cases a with
  | run d =>
    by_cases hcd : c = d
    · subst hcd
      cases q <;> simp only [LockState.next, runStep, hc, LockState.cpu_with_lockByte,
        LockState.cpu_set_self] at hb ⊢
      · simp
      · split_ifs <;> simp_all
      · simp
      · simp at hb
      · exact absurd hb (hfree (by decide) (by decide))
    · rcases next_lockByte true s (.run d) with he | ⟨d', hd', he | he⟩
      · simpa [LockState.next, hcd] using hs c (he ▸ hb)
      · simp [he] at hb
      · cases hd'
        simp [he, Ne.symm hcd] at hb
  | interrupt d | reti d =>
    simp only [LockState.next, LockState.lockByte_set] at hb ⊢
    by_cases hcd : c = d
    · subst hcd
      have hq : q ≠ .idle := fun hq => hfree (by simp [hq]) (by simp [hq]) hb
      have hi : (s.cpu c).interrupt = s.cpu c := by simp [CpuState.interrupt, hirq, hq]
      have hr : (s.cpu c).reti = s.cpu c := by
        unfold CpuState.reti
        split <;> simp_all
      simpa [hi, hr] using hs c hb
    · simpa [hcd] using hs c hb

theorem noStaleLock_reachable {s : LockState} (h : LockReachable true s) : NoStaleLock s := by
  induction h with
  | init => intro c hb; simp [LockState.init] at hb
  | step a hr ih => exact noStaleLock_next (masked_reachable hr) ih a

theorem lockByte_of_outside {s : LockState} (h : LockReachable true s)
    (hall : ∀ c, (s.cpu c).contexts.head? ≠ some .read ∧
      (s.cpu c).contexts.head? ≠ some .critical) :
    s.lockByte = circbufHostifUnlock :=
  (lockByte_valid h).resolve_right fun ⟨c, hb⟩ =>
    (noStaleLock_reachable h c hb).elim (hall c).1 (hall c).2

/-- No stale lock: a processor outside the loop and the critical section has not its
value in the byte, and with both outside the byte is `CIRCBUF_HOSTIF_UNLOCK`. -/
theorem lock_released {s : LockState} (h : LockReachable true s) :
    (∀ c, (s.cpu c).contexts.head? ≠ some .read → (s.cpu c).contexts.head? ≠ some .critical →
      s.lockByte ≠ c.lockValue) ∧
    ((∀ c, (s.cpu c).contexts.head? ≠ some .read ∧ (s.cpu c).contexts.head? ≠ some .critical) →
      s.lockByte = circbufHostifUnlock) :=
  ⟨fun c h1 h2 he => (noStaleLock_reachable h c he).elim h1 h2, lockByte_of_outside h⟩

theorem lock_released_round :
    (LockState.init.run true (List.replicate 5 (.run .pcp))).lockByte = circbufHostifUnlock :=
  (lock_released (LockReachable.init.run _)).2 fun c => by cases c <;> decide

/-- Run alone from outside a round, a processor returns from `circbuf_lock` after four
steps with the byte as `circbufLock` leaves it, and its next write as `circbufUnlock`. -/
theorem lock_round_alone {L : Layout} {s : LockState} {c d : Cpu} (h : LockReachable true s)
    (hcd : c ≠ d) (hc : (s.cpu c).contexts.head? = some .idle)
    (hd : (s.cpu d).contexts.head? ≠ some .read) (hd' : (s.cpu d).contexts.head? ≠ some .critical)
    {inst : CircBufInstance L} {a : Word L} (ha : circbufLockAddr L inst = some a) (mem : Mem L) :
    let t := s.run true (List.replicate 4 (.run c))
    (t.cpu c).contexts.head? = some .critical ∧ t.lockByte = circbufLock L c inst mem a ∧
      (t.next true (.run c)).lockByte = circbufUnlock L inst (circbufLock L c inst mem) a := by
  obtain ⟨q, rest, hq, -, -⟩ := masked_reachable h c
  obtain rfl : q = .idle := by simpa [hq] using hc
  have hb := lockByte_of_outside h fun e => by
    by_cases hec : e = c
    · simp [hec, hq]
    · obtain rfl := Cpu.eq_of_ne_of_ne hcd.symm hec
      exact ⟨hd, hd'⟩
  simp only [circbufLock, circbufUnlock, ha, writeLock_some, Function.update_same]
  simp [LockState.run, LockState.next, runStep, hq, hb]

theorem lock_round_alone_pcp :
    let t := LockState.init.run true (List.replicate 4 (.run .pcp))
    (t.cpu .pcp).contexts.head? = some .critical ∧
      t.lockByte = circbufLock ilp32 .pcp ⟨0, some 7, 0x1004, 0x101c⟩ (fun _ => 0) 0x1000 ∧
      (t.next true (.run .pcp)).lockByte = circbufUnlock ilp32 ⟨0, some 7, 0x1004, 0x101c⟩
        (circbufLock ilp32 .pcp ⟨0, some 7, 0x1004, 0x101c⟩ (fun _ => 0)) 0x1000 :=
  lock_round_alone .init (show Cpu.pcp ≠ .host by decide) (by decide) (by decide) (by decide)
    (show circbufLockAddr ilp32 ⟨0, some 7, 0x1004, 0x101c⟩ = some 0x1000 by decide) _

/-- A processor spins only behind the other, whose value is in the byte and whose next
step returns from `circbuf_lock` or is the write of `circbuf_unlock`. -/
theorem lock_spin_waits {s : LockState} {c d : Cpu} (h : LockReachable true s) (hcd : c ≠ d)
    (hc : (s.cpu c).contexts.head? = some .read)
    (hspin : ((s.next true (.run c)).cpu c).contexts.head? = some .read) :
    s.lockByte = d.lockValue ∧
      (((s.next true (.run d)).cpu d).contexts.head? = some .critical ∨
        ((s.next true (.run d)).cpu d).contexts.head? = some .enable) := by
  obtain ⟨q, rest, hq, -, -⟩ := masked_reachable h c
  obtain rfl : q = .read := by simpa [hq] using hc
  have hb : s.lockByte ≠ circbufHostifUnlock ∧ s.lockByte ≠ c.lockValue := by
    simp only [LockState.next, runStep, hq, LockState.cpu_with_lockByte,
      LockState.cpu_set_self] at hspin
    constructor <;> intro he <;> simp [he] at hspin
  obtain ⟨e, he⟩ := (lockByte_valid h).resolve_left hb.1
  obtain rfl := Cpu.eq_of_ne_of_ne hcd.symm fun hec => hb.2 (hec ▸ he)
  refine ⟨he, ?_⟩
  obtain ⟨p, rest', hp, -, -⟩ := masked_reachable h e
  rcases noStaleLock_reachable h e he with hr | hr <;>
    obtain rfl : p = _ := by simpa [hp] using hr
  · exact .inl (by simp [LockState.next, runStep, hp, he])
  · exact .inr (by simp [LockState.next, runStep, hp])

theorem lock_spin_waits_race :
    let s := LockState.init.run true [.run .pcp, .run .pcp, .run .pcp, .run .host]
    s.lockByte = Cpu.pcp.lockValue ∧
      (((s.next true (.run .pcp)).cpu .pcp).contexts.head? = some .critical ∨
        ((s.next true (.run .pcp)).cpu .pcp).contexts.head? = some .enable) :=
  lock_spin_waits (LockReachable.init.run _) (show Cpu.host ≠ .pcp by decide) (by decide)
    (by decide)

end HostifCircBuf
