import HostifCircBuf.Layer

/-! The heap behind the local queues: what `OPLK_FREE` receives, and which blocks leak. -/
namespace HostifCircBuf

variable {L : Layout} {self : Cpu} {base : HostifInstanceId → Word L} {s : Layer L}

/-- The live blocks are distinct and none is `NULL`. -/
def LiveSound (s : Layer L) : Prop := s.live.Nodup ∧ (0 : Word L) ∉ s.live

theorem liveSound_next {c : Call L} (hs : LiveSound s) (hc : Admissible base s c) :
    LiveSound (s.next self c) := by
  cases c with
  | allocBuffer id pSize malloc getBuf =>
    obtain ⟨-, -, hfresh⟩ := hc
    rcases allocBuffer_cases (s.instanceL id) pSize s.mem s.live malloc getBuf with
      ⟨-, he⟩ | ⟨-, -, he⟩ | ⟨b, -, hb, he⟩ | ⟨_, _, -, -, -, he⟩
    all_goals simp only [Layer.next, he]
    · exact hs
    · exact hs
    · exact ⟨.cons (hfresh _ _ hb) hs.1, by simpa [eq_comm] using And.intro b.base_ne_null hs.2⟩
    · exact hs
  | freeBuffer id =>
    simp only [Layer.next]
    split
    · exact hs
    · exact ⟨hs.1.erase _, fun h => hs.2 (List.mem_of_mem_erase h)⟩
  | _ => exact hs

/-- A created local entry not freed since its last allocBuffer. -/
def Owner (s : Layer L) (id : CircBufId) : Prop :=
  s.created id = true ∧ hostifInstance id = .invalid ∧ s.freed id = false

/-- Each owner holds `NULL` or a live block, and no two owners hold the same block. -/
def OwnersSound (s : Layer L) : Prop :=
  (∀ id, Owner s id →
    (s.instanceL id).pCircBufHeader = 0 ∨ (s.instanceL id).pCircBufHeader ∈ s.live) ∧
  ∀ id id', Owner s id → Owner s id' → (s.instanceL id).pCircBufHeader ≠ 0 →
    (s.instanceL id).pCircBufHeader = (s.instanceL id').pCircBufHeader → id = id'

/-- The caller frees an entry at most once between two allocBuffer calls of it. -/
def FreesOnce (base : HostifInstanceId → Word L) (s : Layer L) : Call L → Prop
  | .freeBuffer id => Admissible base s (.freeBuffer id) ∧ s.freed id = false
  | c => Admissible base s c

theorem FreesOnce.admissible {c : Call L} (h : FreesOnce base s c) : Admissible base s c := by
  cases c <;> first | exact h.1 | exact h

theorem FreesOnce.owner {id : CircBufId} (h : FreesOnce base s (.freeBuffer id))
    (hcl : Classified s id) (harch : (s.instanceL id).pCircBufArchInstance = none) :
    Owner s id :=
  ⟨h.1, (hcl.2 h.1).2.mp harch, h.2⟩

/-- A step that changes only entry `id` keeps the owners sound if `id` ends up with
`NULL`, a block that was not live, or what it had. -/
theorem ownersSound_of_update {s' : Layer L} {id : CircBufId} (hs : OwnersSound s)
    (hown : ∀ j, j ≠ id → Owner s' j → Owner s j)
    (hhdr : ∀ j, j ≠ id → (s'.instanceL j).pCircBufHeader = (s.instanceL j).pCircBufHeader)
    (hlive : ∀ p, p ∈ s.live → p ∈ s'.live)
    (hid : Owner s' id → (s'.instanceL id).pCircBufHeader = 0 ∨
      ((s'.instanceL id).pCircBufHeader ∈ s'.live ∧ (s'.instanceL id).pCircBufHeader ∉ s.live) ∨
      (Owner s id ∧ (s'.instanceL id).pCircBufHeader = (s.instanceL id).pCircBufHeader)) :
    OwnersSound s' := by
  have hold : ∀ j, Owner s' j → (s'.instanceL j).pCircBufHeader ≠ 0 →
      (Owner s j ∧ (s'.instanceL j).pCircBufHeader = (s.instanceL j).pCircBufHeader) ∨
      (j = id ∧ (s'.instanceL id).pCircBufHeader ∉ s.live) := by
    intro j hj hne
    by_cases hji : j = id
    · subst hji
      rcases hid hj with h | ⟨-, h⟩ | h
      · exact absurd h hne
      · exact .inr ⟨rfl, h⟩
      · exact .inl h
    · exact .inl ⟨hown j hji hj, hhdr j hji⟩
  refine ⟨fun j hj => ?_, fun j j' hj hj' hne heq => ?_⟩
  · by_cases hne : (s'.instanceL j).pCircBufHeader = 0
    · exact .inl hne
    · rcases hold j hj hne with ⟨ho, he⟩ | ⟨rfl, -⟩
      · rw [he] at hne ⊢
        exact .inr (hlive _ ((hs.1 j ho).resolve_left hne))
      · rcases hid hj with h | h | ⟨ho, he⟩
        · exact .inl h
        · exact .inr h.1
        · rw [he] at hne ⊢
          exact .inr (hlive _ ((hs.1 j ho).resolve_left hne))
  · have hne' : (s'.instanceL j').pCircBufHeader ≠ 0 := heq ▸ hne
    have hlv : ∀ k, Owner s k → (s.instanceL k).pCircBufHeader ≠ 0 →
        (s.instanceL k).pCircBufHeader ∈ s.live := fun k hk h => (hs.1 k hk).resolve_left h
    rcases hold j hj hne with ⟨ho, he⟩ | ⟨rfl, hf⟩ <;>
      rcases hold j' hj' hne' with ⟨ho', he'⟩ | ⟨rfl, hf'⟩
    · exact hs.2 j j' ho ho' (he ▸ hne) (he ▸ he' ▸ heq)
    · exact absurd (heq ▸ he ▸ hlv j ho (he ▸ hne)) hf'
    · exact absurd (heq.symm ▸ he' ▸ hlv j' ho' (he' ▸ hne')) hf
    · rfl

theorem ownersSound_free {id : CircBufId} (hl : LiveSound s) (hs : OwnersSound s)
    (hid : Owner s id) :
    OwnersSound { s with live := oplkFree s.live (s.instanceL id).pCircBufHeader,
                         freed := Function.update s.freed id true } := by
  have hown : ∀ j, Owner { s with live := oplkFree s.live (s.instanceL id).pCircBufHeader,
                                  freed := Function.update s.freed id true } j →
      j ≠ id ∧ Owner s j := by
    rintro j ⟨h1, h2, h3⟩
    by_cases hj : j = id
    · subst hj
      simp at h3
    · exact ⟨hj, h1, h2, by simpa [Function.update_noteq hj] using h3⟩
  refine ⟨fun j hj => ?_, fun j j' hj hj' => hs.2 j j' (hown j hj).2 (hown j' hj').2⟩
  obtain ⟨hji, hj⟩ := hown j hj
  rcases hs.1 j hj with h | h
  · exact .inl h
  · refine .inr ((List.mem_erase_of_ne fun he => hji ?_).mpr h)
    exact hs.2 j id hj hid (fun h0 => hl.2 (h0 ▸ h)) he

theorem owner_next {c : Call L} {j : CircBufId} (hcl : ∀ id, Classified s id)
    (hc : Admissible base s c) (ho : Owner (s.next self c) j) :
    ((s.next self c).instanceL j).pCircBufHeader = 0 ∨
      (((s.next self c).instanceL j).pCircBufHeader ∈ (s.next self c).live ∧
        ((s.next self c).instanceL j).pCircBufHeader ∉ s.live) ∨
      (Owner s j ∧
        ((s.next self c).instanceL j).pCircBufHeader = (s.instanceL j).pCircBufHeader) := by
  by_cases hj : j = c.id
  swap
  · obtain ⟨h1, h2, -, h4⟩ := next_frame (s := s) self c hj
    exact .inr (.inr ⟨⟨h2 ▸ ho.1, ho.2.1, h4 ▸ ho.2.2⟩, by rw [h1]⟩)
  cases c with
  | createInstance id getInstance =>
    obtain rfl : j = id := hj
    rcases createInstance_cases s.instanceL j getInstance with he | ⟨arch, -, he⟩
    · exact .inr (.inr ⟨by simpa [Layer.next, he] using ho, by simp [Layer.next, he]⟩)
    · cases hcr : s.created j
      · exact .inl (by simp [Layer.next, he, ((hcl j).1 hcr).1, CircBufInstance.zero])
      · exact .inr (.inr ⟨⟨hcr, ho.2.1, ho.2.2⟩, by simp [Layer.next, he]⟩)
  | allocBuffer id pSize malloc getBuf =>
    obtain rfl : j = id := hj
    obtain ⟨hcr, -, hfresh⟩ := hc
    have hloc : (s.instanceL j).pCircBufArchInstance = none := ((hcl j).2 hcr).2.mpr ho.2.1
    rcases allocBuffer_cases (s.instanceL j) pSize s.mem s.live malloc getBuf with
      ⟨hsome, -⟩ | ⟨-, -, he⟩ | ⟨b, -, hb, he⟩ | ⟨_, _, harch, -⟩
    · simp [hloc] at hsome
    · exact .inl (by simp [Layer.next, he])
    · exact .inr (.inl (by simpa [Layer.next, he] using hfresh _ _ hb))
    · simp [hloc] at harch
  | freeBuffer id =>
    obtain rfl : j = id := hj
    rcases next_freeBuffer self s j with ⟨-, he⟩ | ⟨-, he⟩ <;> rw [he] at ho ⊢
    · exact .inr (.inr ⟨ho, rfl⟩)
    · exact absurd ho.2.2 (by simp)
  | connectBuffer id getBuf =>
    obtain rfl : j = id := hj
    have ho : Owner s j := ho
    have hr : circbufConnectBuffer L (s.instanceL j) getBuf = (.ok, s.instanceL j) := by
      simp [circbufConnectBuffer, ((hcl j).2 ho.1).2.mpr ho.2.1]
    exact .inr (.inr ⟨ho, by simp [Layer.next, hr]⟩)
  | freeInstance | disconnectBuffer | lock | unlock => exact .inr (.inr ⟨ho, rfl⟩)

theorem live_next {c : Call L} {p : Word L} (hc : ∀ id, c ≠ .freeBuffer id) (hp : p ∈ s.live) :
    p ∈ (s.next self c).live := by
  cases c with
  | allocBuffer id pSize malloc getBuf =>
    rcases allocBuffer_cases (s.instanceL id) pSize s.mem s.live malloc getBuf with
      ⟨-, he⟩ | ⟨-, -, he⟩ | ⟨b, -, -, he⟩ | ⟨_, _, -, -, -, he⟩ <;> simp [Layer.next, he, hp]
  | freeBuffer id => exact absurd rfl (hc id)
  | _ => exact hp

theorem ownersSound_next {c : Call L} (hcl : ∀ id, Classified s id) (hl : LiveSound s)
    (hs : OwnersSound s) (hc : FreesOnce base s c) : OwnersSound (s.next self c) := by
  cases c with
  | freeBuffer id =>
    rcases next_freeBuffer self s id with ⟨-, he⟩ | ⟨harch, he⟩ <;> rw [he]
    · exact hs
    · exact ownersSound_free hl hs (hc.owner (hcl id) harch)
  | _ =>
    refine ownersSound_of_update hs (fun j hj ho => ?_)
      (fun j hj => by rw [(next_frame self _ hj).1]) (fun _ => live_next fun _ => by simp)
      (owner_next hcl hc.admissible)
    obtain ⟨-, h2, -, h4⟩ := next_frame (s := s) self _ hj
    exact ⟨h2 ▸ ho.1, ho.2.1, h4 ▸ ho.2.2⟩

/-- Under `FreesOnce` every reachable layer is classified, and its heap sound. -/
theorem heap_sound (h : Reachable self (FreesOnce base) s) :
    (∀ id, Classified s id) ∧ LiveSound s ∧ OwnersSound s :=
  h.invariant (P := fun s => (∀ id, Classified s id) ∧ LiveSound s ∧ OwnersSound s)
    (fun mem => ⟨classified_init mem, by simp [LiveSound, Layer.init],
      by simp [OwnersSound, Owner, Layer.init]⟩)
    (fun _ _ ⟨hcl, hl, ho⟩ hc => ⟨fun id => classified_next (hcl id) hc.admissible,
      liveSound_next hl hc.admissible, ownersSound_next hcl hl ho hc⟩)

theorem liveSound_reachable (h : Reachable self (Admissible base) s) : LiveSound s :=
  h.invariant (by simp [LiveSound, Layer.init]) fun _ _ hl hc => liveSound_next hl hc

/-- Under `FreesOnce`, `OPLK_FREE` only receives `NULL` or a live block; without it, a
second freeBuffer of an entry hands `OPLK_FREE` the block it has just freed. -/
theorem freeBuffer_frees_live_blocks :
    (∀ (s : Layer L) id p, Reachable self (FreesOnce base) s → FreesOnce base s (.freeBuffer id) →
      circbufFreeBuffer (s.instanceL id) = some p → p = 0 ∨ p ∈ s.live) ∧
    (∀ (s : Layer L) id p, Reachable self (Admissible base) s →
      circbufFreeBuffer (s.instanceL id) = some p → p ≠ 0 →
      circbufFreeBuffer ((s.next self (.freeBuffer id)).instanceL id) = some p ∧
        p ∉ (s.next self (.freeBuffer id)).live) := by
  refine ⟨fun s id p h hc hp => ?_, fun s id p h hp _ => ?_⟩
  · obtain ⟨hcl, -, ho⟩ := heap_sound h
    obtain ⟨harch, hpe⟩ := freeBuffer_eq_some.mp hp
    exact hpe ▸ ho.1 id (hc.owner (hcl id) harch)
  · simp only [Layer.next, hp, true_and]
    exact (liveSound_reachable h).1.not_mem_erase

theorem freeBuffer_frees_live_blocks_ilp32 :
    let s := ((Layer.init (L := ilp32) fun _ => 0).next .pcp
      (.createInstance 2 fun _ => none)).next .pcp
      (.allocBuffer 2 64 (.at 0x1000 (by decide)) fun _ _ => none)
    ((0x1000 : Word ilp32) = 0 ∨ 0x1000 ∈ s.live) ∧
    circbufFreeBuffer ((s.next .pcp (.freeBuffer 2)).instanceL 2) = some 0x1000 ∧
      0x1000 ∉ (s.next .pcp (.freeBuffer 2)).live := by
  intro s
  have hr : Reachable .pcp (FreesOnce fun _ => 0x1000) s :=
    .step (.step (.init _) trivial) ⟨rfl, fun _ _ _ h => (by cases h),
      fun _ _ _ h => (by simp [Layer.next, Layer.init] at h)⟩
  exact ⟨freeBuffer_frees_live_blocks.1 s 2 0x1000 hr ⟨rfl, rfl⟩ rfl,
    freeBuffer_frees_live_blocks.2 s 2 0x1000 (hr.mono fun _ _ h => h.admissible) rfl
      (by decide)⟩

/-- create, allocBuffer, freeBuffer and freeBuffer again on a local queue: the second
freeBuffer hands `OPLK_FREE` a block that is no longer live. -/
theorem freeBuffer_twice_frees_dead_block :
    let s := (((Layer.init (L := ilp32) fun _ => 0).next .pcp
      (.createInstance 2 fun _ => none)).next .pcp
      (.allocBuffer 2 64 (.at 0x1000 (by decide)) fun _ _ => none)).next .pcp (.freeBuffer 2)
    Reachable .pcp (Admissible fun _ => 0x1000) s ∧
      circbufFreeBuffer (s.instanceL 2) = some 0x1000 ∧ 0x1000 ∉ s.live :=
  ⟨.step (.step (.step (.init _) trivial) ⟨rfl, fun _ _ _ h => (by cases h),
    fun _ _ _ h => (by simp [Layer.next, Layer.init] at h)⟩) rfl, rfl, by decide⟩

/-- A live block no owner holds. -/
def Leaked (s : Layer L) (p : Word L) : Prop :=
  p ∈ s.live ∧ ∀ id, Owner s id → (s.instanceL id).pCircBufHeader ≠ p

theorem leaked_next {c : Call L} {p : Word L} (hcl : ∀ id, Classified s id) (hp : p ≠ 0)
    (hs : Leaked s p) (hc : FreesOnce base s c) : Leaked (s.next self c) p := by
  refine ⟨?_, fun j hj => ?_⟩
  · by_cases hf : ∃ id, c = .freeBuffer id
    · obtain ⟨id, rfl⟩ := hf
      rcases next_freeBuffer self s id with ⟨-, he⟩ | ⟨harch, he⟩ <;> rw [he]
      · exact hs.1
      · exact (List.mem_erase_of_ne (hs.2 id (hc.owner (hcl id) harch)).symm).mpr hs.1
    · exact live_next (fun id he => hf ⟨id, he⟩) hs.1
  · rcases owner_next hcl hc.admissible hj with h | ⟨-, h⟩ | ⟨ho, h⟩
    · exact h ▸ hp.symm
    · exact fun he => h (he ▸ hs.1)
    · exact h ▸ hs.2 j ho

theorem leaked_steps {t : Layer L} {p : Word L} (h : Reachable self (FreesOnce base) s)
    (hs : Leaked s p) (ht : Steps self (FreesOnce base) s t) : Leaked t p := by
  have hp : p ≠ 0 := fun h0 => (heap_sound h).2.1.2 (h0 ▸ hs.1)
  induction ht with
  | refl => exact hs
  | step ht hc ih => exact leaked_next (heap_sound (h.steps ht)).1 hp ih hc

theorem allocBuffer_header_local (self : Cpu) {id : CircBufId} (pSize : Word L)
    {malloc : Malloc L} (getBuf : GetBuf L) (harch : (s.instanceL id).pCircBufArchInstance = none)
    (hfresh : Fresh s.live malloc) :
    ((s.next self (.allocBuffer id pSize malloc getBuf)).instanceL id).pCircBufHeader = 0 ∨
      (((s.next self (.allocBuffer id pSize malloc getBuf)).instanceL id).pCircBufHeader ∈
          (s.next self (.allocBuffer id pSize malloc getBuf)).live ∧
        ((s.next self (.allocBuffer id pSize malloc getBuf)).instanceL id).pCircBufHeader ∉
          s.live) := by
  rcases allocBuffer_cases (s.instanceL id) pSize s.mem s.live malloc getBuf with
    ⟨hsome, -⟩ | ⟨-, -, he⟩ | ⟨b, -, hb, he⟩ | ⟨_, _, hsome, -⟩
  · simp [harch] at hsome
  · exact .inl (by simp [Layer.next, he])
  · exact .inr (by simpa [Layer.next, he] using hfresh _ _ hb)
  · simp [harch] at hsome

/-- allocBuffer on a local entry that still holds a block overwrites `pCircBufHeader`
with `NULL` or a fresh block, and leaks the old one: it stays live, and no later
freeBuffer under `FreesOnce` hands it to `OPLK_FREE`. -/
theorem allocBuffer_leaks_held_block {id : CircBufId} {pSize : Word L} {malloc : Malloc L}
    {getBuf : GetBuf L} {t : Layer L} (h : Reachable self (FreesOnce base) s)
    (hown : Owner s id) (hp : (s.instanceL id).pCircBufHeader ≠ 0)
    (hc : FreesOnce base s (.allocBuffer id pSize malloc getBuf))
    (ht : Steps self (FreesOnce base) (s.next self (.allocBuffer id pSize malloc getBuf)) t) :
    (((s.next self (.allocBuffer id pSize malloc getBuf)).instanceL id).pCircBufHeader = 0 ∨
      (((s.next self (.allocBuffer id pSize malloc getBuf)).instanceL id).pCircBufHeader ∈
          (s.next self (.allocBuffer id pSize malloc getBuf)).live ∧
        ((s.next self (.allocBuffer id pSize malloc getBuf)).instanceL id).pCircBufHeader ∉
          s.live)) ∧
    (s.instanceL id).pCircBufHeader ∈ t.live ∧
      ∀ j q, FreesOnce base t (.freeBuffer j) → circbufFreeBuffer (t.instanceL j) = some q →
        q ≠ (s.instanceL id).pCircBufHeader := by
  obtain ⟨hcl, -, ho⟩ := heap_sound h
  have hlive := (ho.1 id hown).resolve_left hp
  have hnew := allocBuffer_header_local self pSize getBuf
    (((hcl id).2 hown.1).2.mpr hown.2.1) hc.2.2
  have h1 : Leaked (s.next self (.allocBuffer id pSize malloc getBuf))
      (s.instanceL id).pCircBufHeader := by
    refine ⟨live_next (fun _ => by simp) hlive, fun j hj => ?_⟩
    by_cases hji : j = id
    · subst hji
      rcases hnew with h0 | ⟨-, hn⟩
      · exact h0 ▸ hp.symm
      · exact fun he => hn (he ▸ hlive)
    · obtain ⟨h1, h2, -, h4⟩ := next_frame (s := s) self (.allocBuffer id pSize malloc getBuf) hji
      rw [h1]
      exact fun he => hji (ho.2 j id ⟨h2 ▸ hj.1, hj.2.1, h4 ▸ hj.2.2⟩ hown (he ▸ hp) he)
  have hr := h.step hc
  have ht' := leaked_steps hr h1 ht
  refine ⟨hnew, ht'.1, fun j q hf hq => ?_⟩
  obtain ⟨harch, rfl⟩ := freeBuffer_eq_some.mp hq
  exact ht'.2 j (hf.owner ((heap_sound (hr.steps ht)).1 j) harch)

theorem allocBuffer_leaks_held_block_ilp32 :
    let s := ((Layer.init (L := ilp32) fun _ => 0).next .pcp
      (.createInstance 2 fun _ => none)).next .pcp
      (.allocBuffer 2 64 (.at 0x1000 (by decide)) fun _ _ => none)
    let t := s.next .pcp (.allocBuffer 2 64 (.at 0x2000 (by decide)) fun _ _ => none)
    (s.instanceL 2).pCircBufHeader = 0x1000 ∧
      ((t.instanceL 2).pCircBufHeader = 0 ∨
        ((t.instanceL 2).pCircBufHeader ∈ t.live ∧ (t.instanceL 2).pCircBufHeader ∉ s.live)) ∧
      (s.instanceL 2).pCircBufHeader ∈ t.live ∧ ∀ j q, FreesOnce (fun _ => 0x1000) t (.freeBuffer j) →
        circbufFreeBuffer (t.instanceL j) = some q → q ≠ (s.instanceL 2).pCircBufHeader := by
  intro s t
  have hr : Reachable .pcp (FreesOnce fun _ => 0x1000) s :=
    .step (.step (.init _) trivial) ⟨rfl, fun _ _ _ h => (by cases h),
      fun _ _ _ h => (by simp [Layer.next, Layer.init] at h)⟩
  exact ⟨rfl, allocBuffer_leaks_held_block hr ⟨rfl, rfl, rfl⟩ (by decide)
    ⟨rfl, fun _ _ _ h => (by cases h), fun _ _ h => by rw [Malloc.at_base h]; decide⟩ .refl⟩

/-- `FreesOnce`, and allocBuffer only on an entry that holds no block. -/
def Lifecycle (base : HostifInstanceId → Word L) (s : Layer L) : Call L → Prop
  | .allocBuffer id pSize malloc getBuf =>
    FreesOnce base s (.allocBuffer id pSize malloc getBuf) ∧
      (Owner s id → (s.instanceL id).pCircBufHeader = 0)
  | c => FreesOnce base s c

theorem Lifecycle.freesOnce {c : Call L} (h : Lifecycle base s c) : FreesOnce base s c := by
  cases c <;> first | exact h.1 | exact h

theorem owner_keeps {c : Call L} {j : CircBufId} (hcl : Classified s j) (ho : Owner s j)
    (ha : ∀ pSize malloc getBuf, c ≠ .allocBuffer j pSize malloc getBuf)
    (hf : c ≠ .freeBuffer j) :
    Owner (s.next self c) j ∧
      ((s.next self c).instanceL j).pCircBufHeader = (s.instanceL j).pCircBufHeader := by
  by_cases hj : j = c.id
  swap
  · obtain ⟨h1, h2, -, h4⟩ := next_frame (s := s) self c hj
    exact ⟨⟨h2 ▸ ho.1, ho.2.1, h4 ▸ ho.2.2⟩, by rw [h1]⟩
  cases c with
  | createInstance id getInstance =>
    obtain rfl : j = id := hj
    rcases createInstance_cases s.instanceL j getInstance with he | ⟨arch, -, he⟩
    · exact ⟨by simpa [Owner, Layer.next, he] using ho, by simp [Layer.next, he]⟩
    · exact ⟨⟨by simp [Layer.next, he], ho.2.1, ho.2.2⟩, by simp [Layer.next, he]⟩
  | allocBuffer id =>
    obtain rfl : j = id := hj
    exact absurd rfl (ha _ _ _)
  | freeBuffer id =>
    obtain rfl : j = id := hj
    exact absurd rfl hf
  | connectBuffer id getBuf =>
    obtain rfl : j = id := hj
    have hr : circbufConnectBuffer L (s.instanceL j) getBuf = (.ok, s.instanceL j) := by
      simp [circbufConnectBuffer, (hcl.2 ho.1).2.mpr ho.2.1]
    exact ⟨⟨ho.1, ho.2.1, ho.2.2⟩, by simp [Layer.next, hr]⟩
  | freeInstance | disconnectBuffer | lock | unlock => exact ⟨ho, rfl⟩

/-- Every live block is held by an owner. -/
def Accounted (s : Layer L) : Prop :=
  ∀ p ∈ s.live, ∃ id, Owner s id ∧ (s.instanceL id).pCircBufHeader = p

theorem accounted_next {c : Call L} (hcl : ∀ id, Classified s id) (hl : LiveSound s)
    (hs : Accounted s) (hc : Lifecycle base s c) : Accounted (s.next self c) := by
  cases c with
  | allocBuffer id pSize malloc getBuf =>
    obtain ⟨⟨hcr, -, -⟩, hempty⟩ := hc
    intro p hp
    by_cases hlive : p ∈ s.live
    · obtain ⟨j, hj, rfl⟩ := hs p hlive
      have hji : j ≠ id := by
        rintro rfl
        exact hl.2 (hempty hj ▸ hlive)
      exact ⟨j, owner_keeps (hcl j) hj (fun _ _ _ he => hji (by cases he; rfl)) (by simp)⟩
    rcases allocBuffer_cases (s.instanceL id) pSize s.mem s.live malloc getBuf with
      ⟨-, he⟩ | ⟨-, -, he⟩ | ⟨b, harch, -, he⟩ | ⟨_, _, -, -, -, he⟩ <;>
      simp only [Layer.next, he, List.mem_cons, hlive, or_false] at hp
    subst hp
    exact ⟨id, ⟨by simp [Layer.next, hcr], ((hcl id).2 hcr).2.mp harch, by simp [Layer.next]⟩,
      by simp [Layer.next, he]⟩
  | freeBuffer id =>
    rcases next_freeBuffer self s id with ⟨-, he⟩ | ⟨-, he⟩ <;> rw [he]
    · exact hs
    · intro p hp
      obtain ⟨hne, hp⟩ := hl.1.mem_erase_iff.mp hp
      obtain ⟨j, hj, rfl⟩ := hs p hp
      have hji : j ≠ id := fun h => hne (h ▸ rfl)
      exact ⟨j, ⟨hj.1, hj.2.1, by simpa [Function.update_noteq hji] using hj.2.2⟩, rfl⟩
  | _ =>
    intro p hp
    obtain ⟨j, hj, rfl⟩ := hs p (by simpa [Layer.next] using hp)
    exact ⟨j, owner_keeps (hcl j) hj (by simp) (by simp)⟩

/-- Under `Lifecycle` the heap is exact: the live blocks are distinct and are the
non-`NULL` blocks the owners hold, one owner each. -/
theorem lifecycle_heap_exact (h : Reachable self (Lifecycle base) s) :
    s.live.Nodup ∧
    (∀ p, p ∈ s.live ↔ ∃ id, Owner s id ∧ (s.instanceL id).pCircBufHeader = p ∧ p ≠ 0) ∧
    ∀ id id', Owner s id → Owner s id' → (s.instanceL id).pCircBufHeader ≠ 0 →
      (s.instanceL id).pCircBufHeader = (s.instanceL id').pCircBufHeader → id = id' := by
  obtain ⟨-, hl, ho⟩ := heap_sound (h.mono fun _ _ hc => hc.freesOnce)
  have hacc : Accounted s :=
    (h.invariant (P := fun s => (∀ id, Classified s id) ∧ LiveSound s ∧ Accounted s)
      (fun mem => ⟨classified_init mem, by simp [LiveSound, Layer.init],
        by simp [Accounted, Layer.init]⟩)
      (fun _ _ ⟨hcl, hl, ha⟩ hc => ⟨fun id => classified_next (hcl id) hc.freesOnce.admissible,
        liveSound_next hl hc.freesOnce.admissible, accounted_next hcl hl ha hc⟩)).2.2
  refine ⟨hl.1, fun p => ⟨fun hp => ?_, ?_⟩, ho.2⟩
  · obtain ⟨id, hid, rfl⟩ := hacc p hp
    exact ⟨id, hid, rfl, fun h0 => hl.2 (h0 ▸ hp)⟩
  · rintro ⟨id, hid, rfl, hne⟩
    exact (ho.1 id hid).resolve_left hne

theorem lifecycle_heap_exact_ilp32 :
    let s := ((Layer.init (L := ilp32) fun _ => 0).next .pcp
      (.createInstance 2 fun _ => none)).next .pcp
      (.allocBuffer 2 64 (.at 0x1000 (by decide)) fun _ _ => none)
    s.live.Nodup ∧
    (∀ p, p ∈ s.live ↔ ∃ id, Owner s id ∧ (s.instanceL id).pCircBufHeader = p ∧ p ≠ 0) ∧
    ∀ id id', Owner s id → Owner s id' → (s.instanceL id).pCircBufHeader ≠ 0 →
      (s.instanceL id).pCircBufHeader = (s.instanceL id').pCircBufHeader → id = id' := by
  intro s
  have hr : Reachable .pcp (Lifecycle fun _ => 0x1000) s :=
    .step (.step (.init _) trivial) ⟨⟨rfl, fun _ _ _ h => (by cases h),
      fun _ _ _ h => (by simp [Layer.init, Layer.next] at h)⟩, fun _ => rfl⟩
  exact lifecycle_heap_exact hr

end HostifCircBuf
