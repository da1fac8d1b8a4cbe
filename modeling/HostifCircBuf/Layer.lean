import HostifCircBuf.Contracts

/-! One processor's circbuf layer as a state machine over `instance_l`, the shared
windows and the heap, and what every run of admitted calls keeps. -/
namespace HostifCircBuf

variable {L : Layout}

/-- A call into the layer, with the answers its collaborators give it. -/
inductive Call (L : Layout) where
  | createInstance (id : CircBufId) (getInstance : Nat → Option Nat)
  | freeInstance (id : CircBufId)
  | allocBuffer (id : CircBufId) (pSize : Word L) (malloc : Malloc L) (getBuf : GetBuf L)
  | freeBuffer (id : CircBufId)
  | connectBuffer (id : CircBufId) (getBuf : GetBuf L)
  | disconnectBuffer (id : CircBufId)
  | lock (id : CircBufId)
  | unlock (id : CircBufId)

@[simp] def Call.id : Call L → CircBufId
  | .createInstance id _ | .freeInstance id | .allocBuffer id _ _ _ | .freeBuffer id
  | .connectBuffer id _ | .disconnectBuffer id | .lock id | .unlock id => id

/-- One processor's layer. `created`, `ready` and `freed` record the history a caller
relies on; no call reads them. -/
structure Layer (L : Layout) where
  instanceL : CircBufId → CircBufInstance L
  mem : Mem L
  live : List (Word L)
  created : CircBufId → Bool
  ready : CircBufId → Bool
  freed : CircBufId → Bool

def Layer.init (mem : Mem L) : Layer L :=
  ⟨fun _ => .zero, mem, [], fun _ => false, fun _ => false, fun _ => false⟩

/-- One call, on the processor whose `CIRCBUF_HOSTIF_LOCK` belongs to `self`. -/
def Layer.next (self : Cpu) (s : Layer L) : Call L → Layer L
  | .createInstance id getInstance =>
    let r := circbufCreateInstance s.instanceL id getInstance
    { s with instanceL := r.2,
             created := if r.1.isSome then Function.update s.created id true else s.created }
  | .freeInstance _ => s
  | .allocBuffer id pSize malloc getBuf =>
    let out := circbufAllocBuffer L (s.instanceL id) pSize s.mem s.live malloc getBuf
    { s with instanceL := Function.update s.instanceL id out.inst, mem := out.mem,
             live := out.live,
             ready := if out.ret = .ok then Function.update s.ready id true else s.ready,
             freed := Function.update s.freed id false }
  | .freeBuffer id =>
    match circbufFreeBuffer (s.instanceL id) with
    | none => s
    | some p => { s with live := oplkFree s.live p, freed := Function.update s.freed id true }
  | .connectBuffer id getBuf =>
    let r := circbufConnectBuffer L (s.instanceL id) getBuf
    { s with instanceL := Function.update s.instanceL id r.2,
             ready := if r.1 = .ok then Function.update s.ready id true else s.ready }
  | .disconnectBuffer _ => s
  | .lock id => { s with mem := circbufLock L self (s.instanceL id) s.mem }
  | .unlock id => { s with mem := circbufUnlock L (s.instanceL id) s.mem }

/-- `hostif_getBuf` reports the window of each slot at one fixed base. -/
def FixedBase (base : HostifInstanceId → Word L) (getBuf : GetBuf L) : Prop :=
  ∀ pHostif slot w, getBuf pHostif slot = some w → w.base = base slot

/-- `OPLK_MALLOC` hands out no block that is still live. -/
def Fresh (live : List (Word L)) (malloc : Malloc L) : Prop :=
  ∀ n b, malloc.alloc n = some b → b.base ∉ live

/-- What callers and collaborators promise: calls on created entries only, lock and
unlock on ready ones, windows at fixed bases, and fresh heap blocks. -/
def Admissible (base : HostifInstanceId → Word L) (s : Layer L) : Call L → Prop
  | .createInstance _ _ => True
  | .allocBuffer id _ malloc getBuf => s.created id ∧ FixedBase base getBuf ∧ Fresh s.live malloc
  | .connectBuffer id getBuf => s.created id ∧ FixedBase base getBuf
  | .lock id | .unlock id => s.created id ∧ s.ready id
  | .freeInstance id | .freeBuffer id | .disconnectBuffer id => s.created id

/-- The layers reached by runs whose every call meets the contract `ok`. -/
inductive Reachable (self : Cpu) (ok : Layer L → Call L → Prop) : Layer L → Prop
  | init (mem : Mem L) : Reachable self ok (Layer.init mem)
  | step {s : Layer L} {c : Call L} :
      Reachable self ok s → ok s c → Reachable self ok (s.next self c)

section Reachable

variable {self : Cpu} {ok ok' : Layer L → Call L → Prop} {s : Layer L}

/-- A property that start-up has and every admitted call keeps holds all along. -/
theorem Reachable.invariant {P : Layer L → Prop} (h : Reachable self ok s)
    (init : ∀ mem, P (Layer.init mem)) (step : ∀ s c, P s → ok s c → P (s.next self c)) :
    P s := by
  induction h with
  | init mem => exact init mem
  | step _ hc ih => exact step _ _ ih hc

theorem Reachable.mono (h : Reachable self ok s) (hok : ∀ s c, ok s c → ok' s c) :
    Reachable self ok' s := by
  induction h with
  | init mem => exact .init mem
  | step _ hc ih => exact .step ih (hok _ _ hc)

/-- The layers a run of calls meeting `ok` leads to from `s`. -/
inductive Steps (self : Cpu) (ok : Layer L → Call L → Prop) (s : Layer L) : Layer L → Prop
  | refl : Steps self ok s s
  | step {t : Layer L} {c : Call L} : Steps self ok s t → ok t c → Steps self ok s (t.next self c)

theorem Reachable.steps {t : Layer L} (h : Reachable self ok s) (ht : Steps self ok s t) :
    Reachable self ok t := by
  induction ht with
  | refl => exact h
  | step _ hc ih => exact .step ih hc

end Reachable

section Step

variable {self : Cpu} {s : Layer L} {id : CircBufId}

theorem next_frame (self : Cpu) (c : Call L) (hid : id ≠ c.id) :
    (s.next self c).instanceL id = s.instanceL id ∧ (s.next self c).created id = s.created id ∧
      (s.next self c).ready id = s.ready id ∧ (s.next self c).freed id = s.freed id := by
  cases c with
  | createInstance id' getInstance =>
    have hid : id ≠ id' := hid
    refine ⟨createInstance_other _ _ hid, ?_, rfl, rfl⟩
    simp only [Layer.next]
    split_ifs <;> simp [Function.update_noteq hid]
  | freeBuffer id' =>
    have hid : id ≠ id' := hid
    simp only [Layer.next]
    split <;> simp [Function.update_noteq hid]
  | allocBuffer id' | connectBuffer id' =>
    have hid : id ≠ id' := hid
    simp only [Layer.next]
    split_ifs <;> simp [Function.update_noteq hid]
  | freeInstance | disconnectBuffer | lock | unlock => simp [Layer.next]

theorem next_freeBuffer (self : Cpu) (s : Layer L) (id : CircBufId) :
    ((s.instanceL id).pCircBufArchInstance.isSome ∧ s.next self (.freeBuffer id) = s) ∨
    ((s.instanceL id).pCircBufArchInstance = none ∧ s.next self (.freeBuffer id) =
      { s with live := oplkFree s.live (s.instanceL id).pCircBufHeader,
               freed := Function.update s.freed id true }) := by
  simp only [Layer.next, circbufFreeBuffer]
  rcases h : (s.instanceL id).pCircBufArchInstance with _ | a <;> simp

/-- An entry is zero until created, then carries its id and its slot's classification. -/
def Classified (s : Layer L) (id : CircBufId) : Prop :=
  (s.created id = false → s.instanceL id = .zero ∧ s.ready id = false ∧ s.freed id = false) ∧
  (s.created id = true → (s.instanceL id).bufferId = id ∧
    ((s.instanceL id).pCircBufArchInstance = none ↔ hostifInstance id = .invalid))

theorem classified_init (mem : Mem L) (id : CircBufId) : Classified (Layer.init mem) id := by
  simp [Classified, Layer.init]

theorem classified_next {base : HostifInstanceId → Word L} {c : Call L}
    (hs : Classified s id) (hc : Admissible base s c) : Classified (s.next self c) id := by
  by_cases hid : id = c.id
  · cases c with
    | createInstance id' getInstance =>
      obtain rfl : id = id' := hid
      rcases createInstance_cases s.instanceL id getInstance with he | ⟨arch, harch, he⟩
      · simpa [Layer.next, he] using hs
      · simp [Classified, Layer.next, he, harch]
    | allocBuffer id' | connectBuffer id' =>
      obtain rfl : id = id' := hid
      have hcr : s.created id = true := hc.1
      simp_all [Classified, Layer.next]
    | freeBuffer id' =>
      obtain rfl : id = id' := hid
      simp only [Layer.next]
      split
      · exact hs
      · have hcr : s.created id = true := hc
        simpa [Classified, hcr] using hs.2
    | freeInstance | disconnectBuffer | lock | unlock => exact hs
  · obtain ⟨h1, h2, h3, h4⟩ := next_frame (s := s) self c hid
    simpa [Classified, h1, h2, h3, h4] using hs

/-- A ready shared entry points into its slot's window: `GET_QUEUE_BUF_BASE` of its
header is the window's base, and its payload starts past the envelope. -/
def Wired (base : HostifInstanceId → Word L) (s : Layer L) (id : CircBufId) : Prop :=
  s.created id = true → s.ready id = true → Shared id →
    getQueueBufBase L (s.instanceL id).pCircBufHeader = base (hostifInstance id) ∧
    (s.instanceL id).pCircBuf =
      base (hostifInstance id) + BitVec.ofNat L.wordBits L.hostiBufferSize

theorem wired_wire {base : HostifInstanceId → Word L} {getBuf : GetBuf L} {pHostif : Nat}
    {w : Block L} (hfix : FixedBase base getBuf) (hcl : (s.instanceL id).bufferId = id)
    (hw : getBuf pHostif (hostifInstance (s.instanceL id).bufferId) = some w) :
    getQueueBufBase L ((s.instanceL id).wire L w.base).pCircBufHeader = base (hostifInstance id) ∧
    ((s.instanceL id).wire L w.base).pCircBuf =
      base (hostifInstance id) + BitVec.ofNat L.wordBits L.hostiBufferSize := by
  rw [← hcl, ← hfix _ _ _ hw]
  exact ⟨getQueueBufBase_header _, rfl⟩

theorem wired_next {base : HostifInstanceId → Word L} {c : Call L} (hcl : Classified s id)
    (hs : Wired base s id) (hc : Admissible base s c) : Wired base (s.next self c) id := by
  by_cases hid : id = c.id
  · have hready : s.ready id = true → s.created id = true := fun hr => by
      cases hcr : s.created id
      · simp [(hcl.1 hcr).2.1] at hr
      · rfl
    cases c with
    | createInstance id' getInstance =>
      obtain rfl : id = id' := hid
      rcases createInstance_cases s.instanceL id getInstance with he | ⟨arch, -, he⟩
      · simpa [Wired, Layer.next, he] using hs
      · intro _ hr hsh
        simpa [Layer.next, he] using hs (hready hr) hr hsh
    | allocBuffer id' pSize malloc getBuf =>
      obtain rfl : id = id' := hid
      obtain ⟨hcr, hfix, -⟩ := hc
      obtain ⟨hbid, hloc⟩ := hcl.2 hcr
      rcases allocBuffer_cases (s.instanceL id) pSize s.mem s.live malloc getBuf with
        ⟨-, he⟩ | ⟨harch, -, he⟩ | ⟨_, harch, -, he⟩ | ⟨_, _, -, hw, -, he⟩
      · simpa [Wired, Layer.next, he] using hs
      · intro _ _ hsh
        exact absurd (hloc.mp harch) hsh
      · intro _ _ hsh
        exact absurd (hloc.mp harch) hsh
      · simpa [Wired, Layer.next, he] using fun _ _ => wired_wire hfix hbid hw
    | connectBuffer id' getBuf =>
      obtain rfl : id = id' := hid
      obtain ⟨hcr, hfix⟩ := hc
      obtain ⟨hbid, hloc⟩ := hcl.2 hcr
      rcases connectBuffer_cases (s.instanceL id) getBuf with
        ⟨harch, -⟩ | he | ⟨_, _, -, hw, he⟩
      · intro _ _ hsh
        exact absurd (hloc.mp (by simpa [Layer.next] using harch)) hsh
      · simpa [Wired, Layer.next, he] using hs
      · simpa [Wired, Layer.next, he] using fun _ _ => wired_wire hfix hbid hw
    | freeBuffer id' =>
      simp only [Layer.next]
      split <;> exact hs
    | freeInstance | disconnectBuffer | lock | unlock => exact hs
  · obtain ⟨h1, h2, h3, -⟩ := next_frame (s := s) self c hid
    simpa [Wired, h1, h2, h3] using hs

/-- Every entry of a layer reached under the contract is classified and wired. -/
theorem wired_reachable {base : HostifInstanceId → Word L} (h : Reachable self (Admissible base) s)
    (id : CircBufId) : Classified s id ∧ Wired base s id :=
  h.invariant (P := fun s => ∀ id, Classified s id ∧ Wired base s id)
    (fun mem id => ⟨classified_init mem id, by simp [Wired, Layer.init]⟩)
    (fun _ _ hs hc id => ⟨classified_next (hs id).1 hc, wired_next (hs id).1 (hs id).2 hc⟩) id

end Step

theorem lockAddr_of_wired {base : HostifInstanceId → Word L} {s : Layer L} {id : CircBufId}
    (hcl : Classified s id) (hw : Wired base s id) (hc : s.created id = true)
    (hr : s.ready id = true) (hsh : Shared id) :
    circbufLockAddr L (s.instanceL id) = some (base (hostifInstance id)) := by
  obtain ⟨a, ha⟩ := Option.ne_none_iff_exists'.mp (mt ((hcl.2 hc).2.mp) hsh)
  simp [circbufLockAddr, ha, (hw hc hr hsh).1]

theorem allocBuffer_mem (self : Cpu) {base : HostifInstanceId → Word L} {s : Layer L}
    {id : CircBufId} (pSize : Word L) (malloc : Malloc L) {getBuf : GetBuf L}
    (hcl : Classified s id) (hc : s.created id = true) (hfix : FixedBase base getBuf) :
    (s.next self (.allocBuffer id pSize malloc getBuf)).mem = s.mem ∨
      (Shared id ∧ (s.next self (.allocBuffer id pSize malloc getBuf)).mem =
        Function.update s.mem (base (hostifInstance id)) circbufHostifUnlock) := by
  rcases allocBuffer_cases (s.instanceL id) pSize s.mem s.live malloc getBuf with
    ⟨-, he⟩ | ⟨-, -, he⟩ | ⟨_, -, -, he⟩ | ⟨_, w, harch, hg, -, he⟩
  iterate 3 exact .inl (by simp [Layer.next, he])
  have hsh : Shared id := fun hinv => by simp [(hcl.2 hc).2.mpr hinv] at harch
  have hbase : base (hostifInstance id) = w.base := by rw [hfix _ _ _ hg, (hcl.2 hc).1]
  exact .inr ⟨hsh, by simp [Layer.next, he, hbase]⟩

/-- In every reachable layer a created entry keeps `bufferId = id` and is local exactly
when `hostifInstance[id]` is invalid; a ready shared entry is wired to its own window,
and lock, unlock and allocBuffer reach only the byte at offset 0. -/
theorem instance_wiring {self : Cpu} {base : HostifInstanceId → Word L} {s : Layer L}
    {id : CircBufId} (h : Reachable self (Admissible base) s) (hc : s.created id = true) :
    (s.instanceL id).bufferId = id ∧
    ((s.instanceL id).pCircBufArchInstance = none ↔ hostifInstance id = .invalid) ∧
    (s.ready id = true → Shared id →
      getQueueBufBase L (s.instanceL id).pCircBufHeader = base (hostifInstance id) ∧
      (s.instanceL id).pCircBuf =
        base (hostifInstance id) + BitVec.ofNat L.wordBits L.hostiBufferSize ∧
      circbufLockAddr L (s.instanceL id) = some (base (hostifInstance id))) ∧
    ∀ pSize malloc getBuf, FixedBase base getBuf →
      (s.next self (.allocBuffer id pSize malloc getBuf)).mem = s.mem ∨
      (Shared id ∧ (s.next self (.allocBuffer id pSize malloc getBuf)).mem =
        Function.update s.mem (base (hostifInstance id)) circbufHostifUnlock) := by
  obtain ⟨hcl, hw⟩ := wired_reachable h id
  exact ⟨(hcl.2 hc).1, (hcl.2 hc).2, fun hr hsh =>
    ⟨(hw hc hr hsh).1, (hw hc hr hsh).2, lockAddr_of_wired hcl hw hc hr hsh⟩,
    fun pSize malloc _ hfix => allocBuffer_mem self pSize malloc hcl hc hfix⟩

theorem instance_wiring_ilp32 :
    let w : Block ilp32 := ⟨0x1000, 0x100, by decide, by decide⟩
    let sh := ((Layer.init fun _ => 0).next .host (.createInstance 0 fun _ => some 7)).next .host
      (.connectBuffer 0 fun _ _ => some w)
    let sp := ((Layer.init fun _ => 0).next .pcp (.createInstance 0 fun _ => some 7)).next .pcp
      (.allocBuffer 0 64 .exhausted fun _ _ => some w)
    (sh.instanceL 0).bufferId = 0 ∧ (sh.instanceL 0).pCircBufArchInstance = some 7 ∧
      getQueueBufBase ilp32 (sh.instanceL 0).pCircBufHeader = 0x1000 ∧
      circbufLockAddr ilp32 (sh.instanceL 0) = some 0x1000 ∧
      getQueueBufBase ilp32 (sp.instanceL 0).pCircBufHeader = 0x1000 ∧
      circbufLockAddr ilp32 (sp.instanceL 0) = some 0x1000 ∧
      ((sp.next .pcp (.allocBuffer 0 64 .exhausted fun _ _ => some w)).mem = sp.mem ∨
        (Shared 0 ∧ (sp.next .pcp (.allocBuffer 0 64 .exhausted fun _ _ => some w)).mem =
          Function.update sp.mem 0x1000 circbufHostifUnlock)) := by
  intro w sh sp
  have fixed : FixedBase (fun _ => (0x1000 : Word ilp32)) fun _ _ => some w :=
    fun _ _ _ hw => by cases hw; rfl
  have rh : Reachable .host (Admissible fun _ => (0x1000 : Word ilp32)) sh :=
    .step (.step (.init _) trivial) ⟨rfl, fixed⟩
  have rp : Reachable .pcp (Admissible fun _ => (0x1000 : Word ilp32)) sp :=
    .step (.step (.init _) trivial) ⟨rfl, fixed, fun _ _ h => by cases h⟩
  have hh := instance_wiring rh (show sh.created 0 = true from rfl)
  have hp := instance_wiring rp (show sp.created 0 = true from rfl)
  exact ⟨hh.1, rfl, (hh.2.2.1 rfl (by decide)).1, (hh.2.2.1 rfl (by decide)).2.2,
    (hp.2.2.1 rfl (by decide)).1, (hp.2.2.1 rfl (by decide)).2.2, hp.2.2.2 64 .exhausted _ fixed⟩

theorem wire_of_wired {base : HostifInstanceId → Word L} {s : Layer L} {id : CircBufId}
    (hw : Wired base s id) (hc : s.created id = true) (hr : s.ready id = true)
    (hsh : Shared id) : (s.instanceL id).wire L (base (hostifInstance id)) = s.instanceL id := by
  obtain ⟨hh, hp⟩ := hw hc hr hsh
  rw [getQueueBufBase_eq_iff] at hh
  simp only [CircBufInstance.wire, ← hh, ← hp]

/-- allocBuffer or connectBuffer of a shared entry that is already ready leaves the
entry's fields as they were, whether it succeeds or fails. -/
theorem rewire_ready_entry {self : Cpu} {base : HostifInstanceId → Word L} {s : Layer L}
    {id : CircBufId} (h : Reachable self (Admissible base) s) (hc : s.created id = true)
    (hr : s.ready id = true) (hsh : Shared id) :
    (∀ pSize malloc getBuf, FixedBase base getBuf →
      (s.next self (.allocBuffer id pSize malloc getBuf)).instanceL id = s.instanceL id) ∧
    ∀ getBuf, FixedBase base getBuf →
      (s.next self (.connectBuffer id getBuf)).instanceL id = s.instanceL id := by
  obtain ⟨hcl, hw⟩ := wired_reachable h id
  have hwire := wire_of_wired hw hc hr hsh
  have hbid := (hcl.2 hc).1
  have hloc : (s.instanceL id).pCircBufArchInstance ≠ none := mt (hcl.2 hc).2.mp hsh
  refine ⟨fun pSize malloc getBuf hfix => ?_, fun getBuf hfix => ?_⟩
  · rcases allocBuffer_cases (s.instanceL id) pSize s.mem s.live malloc getBuf with
      ⟨-, he⟩ | ⟨harch, -, -⟩ | ⟨_, harch, -, -⟩ | ⟨_, w, -, hg, -, he⟩
    · simp [Layer.next, he]
    · exact absurd harch hloc
    · exact absurd harch hloc
    · rw [hbid] at hg
      simp [Layer.next, he, hfix _ _ _ hg, hwire]
  · rcases connectBuffer_cases (s.instanceL id) getBuf with ⟨harch, -⟩ | he | ⟨_, w, -, hg, he⟩
    · exact absurd harch hloc
    · simp [Layer.next, he]
    · rw [hbid] at hg
      simp [Layer.next, he, hfix _ _ _ hg, hwire]

theorem rewire_ready_entry_ilp32 :
    let s := ((Layer.init (L := ilp32) fun _ => 0).next .host
      (.createInstance 0 fun _ => some 7)).next .host
      (.connectBuffer 0 fun _ _ => some ⟨0x1000, 0x100, by decide, by decide⟩)
    (∀ pSize malloc getBuf, FixedBase (fun _ => 0x1000) getBuf →
      (s.next .host (.allocBuffer 0 pSize malloc getBuf)).instanceL 0 = s.instanceL 0) ∧
    ∀ getBuf, FixedBase (fun _ => 0x1000) getBuf →
      (s.next .host (.connectBuffer 0 getBuf)).instanceL 0 = s.instanceL 0 := by
  intro s
  have hr : Reachable .host (Admissible fun _ => 0x1000) s :=
    .step (.step (.init _) trivial) ⟨rfl, fun _ _ _ hw => by cases hw; rfl⟩
  exact rewire_ready_entry hr rfl rfl (by decide)

end HostifCircBuf
