import HostifCircBuf.Layer

/-! The PCP's and the host's layers over the shared memory of the host interface
windows, their calls interleaved in any order. -/
namespace HostifCircBuf

variable {L : Layout} {base : HostifInstanceId → Word L}

/-- The byte at offset 0 of a shared queue's window, `&pHostifBuffer->lock`. -/
def LockByte (base : HostifInstanceId → Word L) (a : Word L) : Prop :=
  ∃ id, Shared id ∧ a = base (hostifInstance id)

theorem writeLock_apply (addr : Option (Word L)) (v : UInt8) (mem : Mem L) (a : Word L) :
    writeLock addr v mem a = mem a ∨ (addr = some a ∧ writeLock addr v mem a = v) := by
  rcases addr with _ | x
  · exact .inl rfl
  · by_cases ha : a = x
    · subst ha
      exact .inr ⟨rfl, by simp⟩
    · exact .inl (by simp [ha])

section Step

variable {self : Cpu} {s : Layer L} {id : CircBufId}

theorem writeLock_lockAddr (hcl : Classified s id) (hw : Wired base s id)
    (hc : s.created id = true) (hr : s.ready id = true) (v : UInt8) (mem : Mem L) (a : Word L) :
    writeLock (circbufLockAddr L (s.instanceL id)) v mem a = mem a ∨
      (LockByte base a ∧ writeLock (circbufLockAddr L (s.instanceL id)) v mem a = v) := by
  refine (writeLock_apply _ v mem a).imp_right fun ⟨ha, hv⟩ => ⟨?_, hv⟩
  by_cases hsh : Shared id
  · rw [lockAddr_of_wired hcl hw hc hr hsh] at ha
    exact ⟨id, hsh, (Option.some_inj.mp ha).symm⟩
  · have harch : (s.instanceL id).pCircBufArchInstance = none :=
      (hcl.2 hc).2.mpr (by simpa [Shared] using hsh)
    simp [circbufLockAddr, harch] at ha

/-- A call writes shared memory only at a lock byte, and only `CIRCBUF_HOSTIF_UNLOCK` or
the caller's own `CIRCBUF_HOSTIF_LOCK`. -/
theorem mem_next (self : Cpu) {c : Call L} (hcl : Classified s c.id) (hw : Wired base s c.id)
    (hc : Admissible base s c) (a : Word L) :
    (s.next self c).mem a = s.mem a ∨ (LockByte base a ∧
      ((s.next self c).mem a = circbufHostifUnlock ∨ (s.next self c).mem a = self.lockValue)) := by
  cases c with
  | allocBuffer id pSize malloc getBuf =>
    have hcl : Classified s id := hcl
    rcases allocBuffer_mem self pSize malloc hcl hc.1 hc.2.1 with he | ⟨hsh, he⟩
    · exact .inl (by rw [he])
    · by_cases ha : a = base (hostifInstance id)
      · exact .inr ⟨⟨id, hsh, ha⟩, .inl (by simp [he, ha])⟩
      · exact .inl (by simp [he, ha])
  | lock id =>
    obtain ⟨hcr, hr⟩ := hc
    exact (writeLock_lockAddr hcl hw hcr hr _ _ a).imp_right fun h => ⟨h.1, .inr h.2⟩
  | unlock id =>
    obtain ⟨hcr, hr⟩ := hc
    exact (writeLock_lockAddr hcl hw hcr hr _ _ a).imp_right fun h => ⟨h.1, .inl h.2⟩
  | freeBuffer id =>
    rcases next_freeBuffer self s id with ⟨-, he⟩ | ⟨-, he⟩ <;> simp [he]
  | createInstance | freeInstance | connectBuffer | disconnectBuffer =>
    exact .inl rfl

end Step

/-- Both layers and the shared memory by physical address; processor `c` reaches it
through its own address map `view c`. -/
structure System (L : Layout) where
  pcp : Layer L
  host : Layer L
  mem : Mem L

def System.layer (sys : System L) : Cpu → Layer L
  | .pcp => sys.pcp
  | .host => sys.host

def System.set (sys : System L) : Cpu → Layer L → System L
  | .pcp, l => { sys with pcp := l }
  | .host, l => { sys with host := l }

/-- A call of processor `c` into its own layer, seeing the memory through `view c`. -/
def System.next (view : Cpu → Equiv.Perm (Word L)) (sys : System L) (c : Cpu)
    (call : Call L) : System L :=
  let l := ({ sys.layer c with mem := sys.mem ∘ view c } : Layer L).next c call
  { sys.set c l with mem := l.mem ∘ (view c).symm }

def System.init (mem : Mem L) : System L := ⟨Layer.init mem, Layer.init mem, mem⟩

@[simp] theorem System.layer_set_self (sys : System L) (c : Cpu) (l : Layer L) :
    (sys.set c l).layer c = l := by
  cases c <;> rfl

theorem System.layer_set_ne (sys : System L) {c d : Cpu} (l : Layer L) (h : d ≠ c) :
    (sys.set c l).layer d = sys.layer d := by
  cases c <;> cases d <;> first | rfl | exact absurd rfl h

@[simp] theorem System.layer_with_mem (sys : System L) (m : Mem L) (c : Cpu) :
    ({ sys with mem := m } : System L).layer c = sys.layer c := by
  cases c <;> rfl

/-- Runs whose every call meets the caller's contract, with `c`'s windows at `base c`. -/
inductive SysReachable (view : Cpu → Equiv.Perm (Word L))
    (base : Cpu → HostifInstanceId → Word L) (mem0 : Mem L) : System L → Prop
  | init : SysReachable view base mem0 (System.init mem0)
  | step {sys : System L} {c : Cpu} {call : Call L} :
      SysReachable view base mem0 sys → Admissible (base c) (sys.layer c) call →
        SysReachable view base mem0 (sys.next view c call)

section Sys

variable {view : Cpu → Equiv.Perm (Word L)} {base : Cpu → HostifInstanceId → Word L}
  {mem0 : Mem L}

/-- A lock byte of a shared window, as either processor reaches it. -/
def PhysLockByte (view : Cpu → Equiv.Perm (Word L)) (base : Cpu → HostifInstanceId → Word L)
    (a : Word L) : Prop :=
  ∃ c, LockByte (base c) ((view c).symm a)

/-- Both layers classified and wired; each byte at its start-up value or a lock byte
holding a lock value. -/
structure SysSound (view : Cpu → Equiv.Perm (Word L)) (base : Cpu → HostifInstanceId → Word L)
    (mem0 : Mem L) (sys : System L) : Prop where
  layers : ∀ c id, Classified (sys.layer c) id ∧ Wired (base c) (sys.layer c) id
  bytes : ∀ a, sys.mem a = mem0 a ∨ (PhysLockByte view base a ∧
    (sys.mem a = circbufHostifUnlock ∨ ∃ c : Cpu, sys.mem a = c.lockValue))

theorem sysSound_next {sys : System L} {c : Cpu} {call : Call L}
    (h : SysSound view base mem0 sys) (hc : Admissible (base c) (sys.layer c) call) :
    SysSound view base mem0 (sys.next view c call) where
  layers d id := by
    obtain ⟨hcl, hw⟩ := h.layers c id
    by_cases hdc : d = c
    · subst hdc
      simp only [System.next, System.layer_with_mem, System.layer_set_self]
      exact ⟨classified_next hcl hc, wired_next hcl hw hc⟩
    · simp only [System.next, System.layer_with_mem, System.layer_set_ne _ _ hdc]
      exact h.layers d id
  bytes a := by
    obtain ⟨hcl, hw⟩ := h.layers c call.id
    rcases mem_next (s := { sys.layer c with mem := sys.mem ∘ view c }) c hcl hw hc
      ((view c).symm a) with he | ⟨hb, hv⟩
    · simpa [System.next, he] using h.bytes a
    · exact .inr ⟨⟨c, hb⟩, hv.imp_right fun hv => ⟨c, hv⟩⟩

/-- Over any interleaving of admitted calls the two layers write the shared memory only
at lock bytes, and only `CIRCBUF_HOSTIF_UNLOCK` or a processor's `CIRCBUF_HOSTIF_LOCK`. -/
theorem shared_memory_writes {sys : System L} (h : SysReachable view base mem0 sys)
    (a : Word L) :
    sys.mem a = mem0 a ∨ (PhysLockByte view base a ∧
      (sys.mem a = circbufHostifUnlock ∨ ∃ c : Cpu, sys.mem a = c.lockValue)) := by
  have hs : SysSound view base mem0 sys := by
    induction h with
    | init =>
      exact ⟨fun c id => by cases c <;> exact ⟨classified_init mem0 id,
        by simp [Wired, Layer.init, System.init, System.layer]⟩, fun _ => .inl rfl⟩
    | step _ hc ih => exact sysSound_next ih hc
  exact hs.bytes a

end Sys

theorem shared_memory_writes_ilp32 :
    let w : Block ilp32 := ⟨0x1000, 0x100, by decide, by decide⟩
    let view : Cpu → Equiv.Perm (Word ilp32) := fun _ => Equiv.refl _
    let sys := ((((System.init fun _ => 0xee).next view .pcp
      (.createInstance 0 fun _ => some 7)).next view .pcp
      (.allocBuffer 0 64 .exhausted fun _ _ => some w)).next view .host
      (.createInstance 0 fun _ => some 9)).next view .host (.connectBuffer 0 fun _ _ => some w)
    let sys' := sys.next view .host (.lock 0)
    sys'.mem 0x1000 = 0xee ∨ (PhysLockByte view (fun _ _ => 0x1000) 0x1000 ∧
      (sys'.mem 0x1000 = circbufHostifUnlock ∨ ∃ c : Cpu, sys'.mem 0x1000 = c.lockValue)) := by
  intro w view sys sys'
  have fixed : FixedBase (fun _ => (0x1000 : Word ilp32)) fun _ _ => some w :=
    fun _ _ _ hw => by cases hw; rfl
  have hr : SysReachable view (fun _ _ => 0x1000) (fun _ => 0xee) sys :=
    .step (.step (.step (.step .init (by trivial))
      (by exact ⟨rfl, fixed, fun _ _ h => by cases h⟩)) (by trivial)) (by exact ⟨rfl, fixed⟩)
  exact shared_memory_writes (.step hr (by exact ⟨rfl, rfl⟩)) 0x1000

end HostifCircBuf
