import SatanKernel.Lib.Disturbance
import SatanKernel.X86.Walk

/-!
# The temporary page

`arch/x86/paging/tmp_page.rs`: a window of one page through which the kernel accesses
physical frames.  `map` writes the entry of the page and flushes its translation, unless
the entry already has the requested value.

The processor disturbs this at any moment: it caches the translation, evicts it, and sets
the accessed and dirty bits of the entry.
-/

namespace SatanKernel.X86

open Lib Program

/-- `TMP_PAGE_ENTRY` and the cached translation of the page. -/
structure Window where
  entry : PTEntry
  cached : Option Nat
  deriving DecidableEq, Repr

/-- What the processor may do by itself. -/
inductive Processor : Window → Window → Prop where
  | fill {window : Window} (present : window.entry.flags.p = true) :
      Processor window { window with cached := some window.entry.frame }
  | evict {window : Window} : Processor window { window with cached := none }
  | setAccessed {window : Window} :
      Processor window { window with entry := ⟨window.entry.word ||| 0x20⟩ }
  | setDirty {window : Window} :
      Processor window { window with entry := ⟨window.entry.word ||| 0x40⟩ }

inductive TmpPageOp where
  | readEntry
  | writeEntry (entry : PTEntry)
  | flushTlb
  /-- An access through the window; the answer is the frame that it goes to -/
  | access
  deriving DecidableEq, Repr

abbrev TmpPageOp.Answer : TmpPageOp → Type
  | .readEntry => PTEntry
  | .writeEntry _ => Unit
  | .flushTlb => Unit
  | .access => Option Nat

abbrev tmpPageSig : Signature := ⟨TmpPageOp, TmpPageOp.Answer⟩

abbrev TmpPageM := Program tmpPageSig Empty

def tmpPageHandler : Handler tmpPageSig Window
  | .readEntry, window => some (window.entry, window)
  | .writeEntry entry, window => some ((), { window with entry })
  | .flushTlb, window => some ((), { window with cached := none })
  | .access, window =>
      let walked := if window.entry.flags.p then some window.entry.frame else none
      some (window.cached.or walked, window)

/-- `PTEntry::new_page(addr, PageSize::Size4K, PTEFlags::P | PTEFlags::RW)`. -/
def tmpPageEntry (addr : Nat) : PTEntry :=
  .newPage addr .size4K ⟨true, true, false, false, false, false, false⟩

/-- Map a physical address to the TMP page. -/
def tmpPageMap (addr : Nat) : TmpPageM Unit :=
  if addr % 0x1000 = 0 then
    .call .readEntry fun (current : PTEntry) =>
      if current ≠ tmpPageEntry addr then
        .call (.writeEntry (tmpPageEntry addr)) fun _ => .call .flushTlb fun _ => .ret ()
      else .ret ()
  else .panic

/-- The same without the comparison. -/
def tmpPageRemap (addr : Nat) : TmpPageM Unit :=
  .call (.writeEntry (tmpPageEntry addr)) fun _ => .call .flushTlb fun _ => .ret ()

/-- What the kernel does with the window. -/
inductive WindowUse where
  | map (addr : Nat)
  | access
  deriving DecidableEq, Repr

/-- Use the window, and return the frames that the accesses went to. -/
def useWindow (map : Nat → TmpPageM Unit) : List WindowUse → TmpPageM (List (Option Nat))
  | [] => .ret []
  | .map addr :: rest => map addr >>= fun _ => useWindow map rest
  | .access :: rest => .call .access fun frame => do
      let frames ← useWindow map rest
      pure (frame :: frames)

/-- The frames that the accesses should go to: the one that was mapped last. -/
def framesMapped : Option Nat → List WindowUse → List (Option Nat)
  | _, [] => []
  | _, .map addr :: rest => framesMapped (some addr) rest
  | mapped, .access :: rest => mapped :: framesMapped mapped rest

/-! ## The entry and the cached translation -/

/-- The frame that the entry maps. -/
def Window.walks (window : Window) : Option Nat :=
  if window.entry.flags.p then some window.entry.frame else none

/-- A cached translation is the one of the entry. -/
def Window.Agrees (window : Window) : Prop :=
  ∀ frame, window.cached = some frame → window.walks = some frame

/-- Bits that are none of the flags. -/
theorem flags_or (word : BitVec usizeBits) {bits : BitVec usizeBits}
    (other : ∀ bit ∈ [0, 1, 2, 3, 4, 7, 8], bits.getLsbD bit = false) :
    PTEntry.flags ⟨word ||| bits⟩ = PTEntry.flags ⟨word⟩ := by
  simp only [PTEntry.flags, BitVec.getLsbD_or, other 0 (by decide), other 1 (by decide),
    other 2 (by decide), other 3 (by decide), other 4 (by decide), other 7 (by decide),
    other 8 (by decide), Bool.or_false]

theorem frame_or_low (word : BitVec usizeBits) {bits : BitVec usizeBits}
    (low : bits.toNat < 2 ^ 12) :
    PTEntry.frame ⟨word ||| bits⟩ = PTEntry.frame ⟨word⟩ := by
  have shifted : (word ||| bits).toNat / 2 ^ 12 = word.toNat / 2 ^ 12 := by
    rw [BitVec.toNat_or, ← Nat.shiftRight_eq_div_pow, ← Nat.shiftRight_eq_div_pow,
      Nat.shiftRight_or_distrib, Nat.shiftRight_eq_div_pow bits.toNat, Nat.div_eq_of_lt low,
      Nat.or_zero]
  simp only [PTEntry.frame]
  rw [show (0x1000 : Nat) = 2 ^ 12 from rfl, shifted]

/-- The processor does not change what the entry maps. -/
theorem walks_of_processor {window after : Window} (disturbed : Processor window after) :
    after.walks = window.walks := by
  cases disturbed with
  | fill present => rfl
  | evict => rfl
  | setAccessed =>
      simp only [Window.walks]
      rw [flags_or _ (by decide), frame_or_low _ (by decide)]
  | setDirty =>
      simp only [Window.walks]
      rw [flags_or _ (by decide), frame_or_low _ (by decide)]

theorem agrees_of_processor {window after : Window} (agrees : window.Agrees)
    (disturbed : Processor window after) : after.Agrees := by
  intro frame cached
  rw [walks_of_processor disturbed]
  cases disturbed with
  | fill present =>
      cases cached
      rw [Window.walks, if_pos present]
  | evict => cases cached
  | setAccessed => exact agrees frame cached
  | setDirty => exact agrees frame cached

theorem walks_tmpPageEntry {addr : Nat} (aligned : addr % 0x1000 = 0)
    (isAddress : addr < 0x100000000) (cached : Option Nat) :
    Window.walks ⟨tmpPageEntry addr, cached⟩ = some addr := by
  have frame : (tmpPageEntry addr).frame = addr := PTEntry.newPage_4K_frame isAddress aligned _
  have present : (tmpPageEntry addr).flags.p = true := by
    rw [tmpPageEntry, PTEntry.newPage_4K_flags aligned]
  rw [Window.walks, if_pos present, frame]

/-! ## Mapping -/

/-- The window is mapped to a frame, or not mapped yet. -/
structure Window.Mapped (mapped : Option Nat) (window : Window) : Prop where
  agrees : window.Agrees
  walks : window.walks = mapped

theorem Window.Mapped.of_processor {mapped : Option Nat} {window after : Window}
    (isMapped : window.Mapped mapped) (disturbed : Processor window after) :
    after.Mapped mapped :=
  ⟨agrees_of_processor isMapped.agrees disturbed,
    (walks_of_processor disturbed).trans isMapped.walks⟩

/-- An access goes to the frame that is mapped. -/
theorem Window.Mapped.access {mapped : Option Nat} {window : Window}
    (isMapped : window.Mapped mapped) :
    tmpPageHandler .access window = some (mapped, window) := by
  have walked : (if window.entry.flags.p then some window.entry.frame else none) = mapped :=
    isMapped.walks
  simp only [tmpPageHandler, walked]
  cases cached : window.cached with
  | none => rfl
  | some frame =>
      have same := isMapped.agrees frame cached
      rw [isMapped.walks] at same
      rw [same]
      rfl

/-- Obligations of code on the window: only its end matters. -/
abbrev SafeOnWindow {α : Type} (post : Outcome Empty α → Window → Prop) :
    TmpPageM α → Window → Prop :=
  Safe tmpPageHandler Processor (fun _ => True) post

section Map

variable {addr : Nat} {mapped : Option Nat} {window : Window}
  {post : Outcome Empty Unit → Window → Prop}

/-- Writing and flushing. -/
theorem safe_tmpPageRemap (aligned : addr % 0x1000 = 0) (isAddress : addr < 0x100000000)
    (post_of : ∀ after, after.Mapped (some addr) → post (.ok ()) after) (window : Window) :
    SafeOnWindow post (tmpPageRemap addr) window := by
  apply safe_call (fun _ => True) trivial (fun _ _ _ _ => trivial)
  refine fun current _ => ⟨trivial, fun _ written wrote => ?_⟩
  cases wrote
  apply safe_call (fun window => window.walks = some addr) (walks_tmpPageEntry aligned isAddress _)
  · intro before after walks disturbed
    rw [walks_of_processor disturbed, walks]
  intro unflushed walks
  refine ⟨trivial, fun _ flushed flush => ?_⟩
  cases flush
  apply safe_ret (Window.Mapped (some addr))
  · exact ⟨fun frame cached => absurd cached (Option.some_ne_none frame).symm, walks⟩
  · exact fun before after isMapped => isMapped.of_processor
  · exact fun after isMapped => ⟨trivial, post_of after isMapped⟩

/-- `map` ends with the window at the address, however it was mapped before. -/
theorem safe_tmpPageMap (aligned : addr % 0x1000 = 0) (isAddress : addr < 0x100000000)
    (before : window.Mapped mapped)
    (post_of : ∀ after, after.Mapped (some addr) → post (.ok ()) after) :
    SafeOnWindow post (tmpPageMap addr) window := by
  rw [tmpPageMap, if_pos aligned]
  apply safe_call Window.Agrees before.agrees (fun _ _ => agrees_of_processor)
  refine fun current agrees => ⟨trivial, fun answer _ read => ?_⟩
  cases read
  split
  next different => exact safe_tmpPageRemap aligned isAddress post_of current
  next equal =>
    -- The cached translation, if any, is the one of this very entry.
    apply safe_ret (Window.Mapped (some addr))
    · refine ⟨agrees, ?_⟩
      have same : current.entry = tmpPageEntry addr := not_not.mp equal
      have walks := walks_tmpPageEntry aligned isAddress current.cached
      rw [← same] at walks
      exact walks
    · exact fun before after isMapped => isMapped.of_processor
    · exact fun after isMapped => ⟨trivial, post_of after isMapped⟩

end Map

/-! ## Using the window -/

/-- A way to map the window: it ends with the window at the address, and undisturbed it does
return. -/
structure MapsWindow (map : Nat → TmpPageM Unit) : Prop where
  safe : ∀ {addr : Nat} {mapped : Option Nat} {window : Window}
    {post : Outcome Empty Unit → Window → Prop}, addr % 0x1000 = 0 → addr < 0x100000000 →
    window.Mapped mapped → (∀ after, after.Mapped (some addr) → post (.ok ()) after) →
    SafeOnWindow post (map addr) window
  returns : ∀ {addr : Nat} (window : Window), addr % 0x1000 = 0 →
    ∃ after, run tmpPageHandler (map addr) window = (.ok (), after)

theorem tmpPageMap_mapsWindow : MapsWindow tmpPageMap where
  safe aligned isAddress before post_of := safe_tmpPageMap aligned isAddress before post_of
  returns {addr} window aligned := by
    rw [tmpPageMap, if_pos aligned, run_call_some tmpPageHandler rfl]
    split
    · exact ⟨_, rfl⟩
    · exact ⟨_, rfl⟩

theorem tmpPageRemap_mapsWindow : MapsWindow tmpPageRemap where
  safe aligned isAddress _ post_of := safe_tmpPageRemap aligned isAddress post_of _
  returns _ _ := ⟨_, rfl⟩

/-- The address of a call of `map` is page aligned and fits the machine word. -/
def WindowUse.Aligned : WindowUse → Prop
  | .map addr => addr % 0x1000 = 0 ∧ addr < 0x100000000
  | .access => True

instance : DecidablePred WindowUse.Aligned
  | .map addr => inferInstanceAs (Decidable (addr % 0x1000 = 0 ∧ addr < 0x100000000))
  | .access => inferInstanceAs (Decidable True)

section Uses

variable {map : Nat → TmpPageM Unit}

/-- Every access goes to the frame that was mapped last. -/
theorem MapsWindow.safe_useWindow (maps : MapsWindow map) {uses : List WindowUse}
    (aligned : ∀ use ∈ uses, use.Aligned) {mapped : Option Nat} {window : Window}
    (isMapped : window.Mapped mapped) {post : Outcome Empty (List (Option Nat)) → Window → Prop}
    (post_of : ∀ after, post (.ok (framesMapped mapped uses)) after) :
    SafeOnWindow post (useWindow map uses) window := by
  induction uses generalizing mapped window post with
  | nil =>
      rw [useWindow]
      exact safe_ret (fun _ => True) trivial (fun _ _ _ _ => trivial)
        fun after _ => ⟨trivial, post_of after⟩
  | cons use rest ih =>
      have restAligned : ∀ use ∈ rest, use.Aligned := fun other member =>
        aligned other (List.mem_cons_of_mem _ member)
      cases use with
      | map addr =>
          obtain ⟨onPage, isAddress⟩ := aligned (.map addr) List.mem_cons_self
          rw [useWindow]
          apply Safe.bind
          apply maps.safe onPage isAddress isMapped
          intro after mappedAfter
          exact ih restAligned mappedAfter post_of
      | access =>
          rw [useWindow]
          apply safe_call (Window.Mapped mapped) isMapped fun _ _ held => held.of_processor
          refine fun current held => ⟨trivial, fun frame after handled => ?_⟩
          rw [held.access] at handled
          cases handled
          apply Safe.bind
          apply ih restAligned held
          intro last
          change SafeOnWindow post (.ret (mapped :: framesMapped mapped rest)) last
          exact safe_ret (fun _ => True) trivial (fun _ _ _ _ => trivial)
            fun after _ => ⟨trivial, post_of after⟩

/-- An undisturbed use of the window returns. -/
theorem MapsWindow.returns_useWindow (maps : MapsWindow map) {uses : List WindowUse}
    (aligned : ∀ use ∈ uses, use.Aligned) (window : Window) :
    ∃ frames after, run tmpPageHandler (useWindow map uses) window = (.ok frames, after) := by
  induction uses generalizing window with
  | nil => exact ⟨[], window, rfl⟩
  | cons use rest ih =>
      have restAligned : ∀ use ∈ rest, use.Aligned := fun other member =>
        aligned other (List.mem_cons_of_mem _ member)
      cases use with
      | map addr =>
          obtain ⟨middle, mappedTo⟩ :=
            maps.returns window (aligned (.map addr) List.mem_cons_self).1
          obtain ⟨frames, after, returned⟩ := ih restAligned middle
          refine ⟨frames, after, ?_⟩
          rw [useWindow, run_bind, mappedTo]
          exact returned
      | access =>
          obtain ⟨frames, after, returned⟩ := ih restAligned window
          have accessed : tmpPageHandler .access window =
              some (window.cached.or window.walks, window) := rfl
          refine ⟨window.cached.or window.walks :: frames, after, ?_⟩
          rw [useWindow, run_call_some tmpPageHandler accessed, run_bind, returned]
          rfl

/-- The frames that a use of the window can return: those that were mapped, and no others. -/
theorem MapsWindow.useWindow_iff (maps : MapsWindow map) {uses : List WindowUse}
    (aligned : ∀ use ∈ uses, use.Aligned) (frames : List (Option Nat)) :
    (∃ after, Reaches tmpPageHandler Processor (useWindow map uses, ⟨.NULL, none⟩)
      (.ret frames, after)) ↔ frames = framesMapped none uses := by
  have unmapped : Window.Mapped none ⟨.NULL, none⟩ :=
    ⟨fun frame cached => absurd cached (Option.some_ne_none frame).symm, by decide⟩
  have safe : SafeOnWindow (fun outcome _ => outcome = .ok (framesMapped none uses))
      (useWindow map uses) ⟨.NULL, none⟩ :=
    maps.safe_useWindow aligned unmapped fun _ => rfl
  constructor
  · rintro ⟨after, reached⟩
    have ended := (safe.reached reached).returned
    cases ended
    rfl
  · intro expected
    obtain ⟨returnedFrames, after, returned⟩ := maps.returns_useWindow aligned ⟨.NULL, none⟩
    have reached : Reaches tmpPageHandler Processor (useWindow map uses, ⟨.NULL, none⟩)
        (.ret returnedFrames, after) := reaches_of_run returned
    have ended := (safe.reached reached).returned
    cases ended
    rw [expected]
    exact ⟨after, reached⟩

end Uses

/-- Whatever the processor does in between, the accesses through the window go to the frames
that were mapped last, and the comparison in `map` makes no difference. -/
theorem tmpPage_shows_mapped_frame {uses : List WindowUse} (aligned : ∀ use ∈ uses, use.Aligned)
    (frames : List (Option Nat)) :
    ((∃ after, Reaches tmpPageHandler Processor (useWindow tmpPageMap uses, ⟨.NULL, none⟩)
      (.ret frames, after)) ↔ frames = framesMapped none uses) ∧
    ((∃ after, Reaches tmpPageHandler Processor (useWindow tmpPageRemap uses, ⟨.NULL, none⟩)
      (.ret frames, after)) ↔ frames = framesMapped none uses) :=
  ⟨tmpPageMap_mapsWindow.useWindow_iff aligned frames,
    tmpPageRemap_mapsWindow.useWindow_iff aligned frames⟩

/-- The same frame mapped twice, and another one. -/
theorem tmpPage_shows_mapped_frame_twice :
    let uses : List WindowUse := [.map 0x5000, .access, .map 0x5000, .access, .map 0x7000, .access]
    (∀ use ∈ uses, use.Aligned) ∧
      ∃ after, Reaches tmpPageHandler Processor (useWindow tmpPageMap uses, ⟨.NULL, none⟩)
        (.ret [some 0x5000, some 0x5000, some 0x7000], after) :=
  ⟨by decide, (tmpPage_shows_mapped_frame (by decide) _).1.mpr (by decide)⟩

end SatanKernel.X86
