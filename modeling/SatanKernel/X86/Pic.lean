import Mathlib.Tactic.Common
import Mathlib.Tactic.SplitIfs

/-!
# The interrupt controllers

Two controllers of the kind 8259A, the second of which requests line 2 of the first one.  A
controller that has interrupted the CPU does so again only for a line of a higher priority,
until it is told that the interrupt has ended.  Devices do not withdraw their requests.

As `arch/x86/interrupts.rs` programs them, the interrupt that the CPU takes has the vector of
the requested line of the highest priority, and one word to the first controller ends the
interrupt of one of its lines.
-/

namespace SatanKernel.X86

/-! ## The controllers -/

/-- The words of its initialization that a controller still waits for. -/
inductive PicStage where
  | offset
  | cascade
  | mode
  | ready
  deriving DecidableEq, Repr

/-- A controller: the lines that are requested, in service and masked, the vector of its
first line, and how it is connected to the other controller. -/
structure Pic where
  requested : BitVec 8
  inService : BitVec 8
  mask : BitVec 8
  offset : Nat
  cascade : Nat
  stage : PicStage
  deriving DecidableEq, Repr

namespace Pic

/-- A write to the first port: the initialization begins, or the interrupt of the highest
priority that is in service has ended.  The kernel writes nothing else. -/
def writeCommand (pic : Pic) (value : Nat) : Pic :=
  if value.testBit 4 then { pic with requested := 0, inService := 0, mask := 0, stage := .offset }
  else if value = 0x20 then { pic with inService := pic.inService &&& (pic.inService - 1) }
  else pic

/-- A write to the second port: a word of the initialization, or the mask. -/
def writeData (pic : Pic) (value : Nat) : Pic :=
  match pic.stage with
  | .offset => { pic with offset := value / 8 * 8, stage := .cascade }
  | .cascade => { pic with cascade := value, stage := .mode }
  | .mode => { pic with stage := .ready }
  | .ready => { pic with mask := BitVec.ofNat 8 value }

/-- The first line that is requested and not masked, unless one of at least its priority is
in service. -/
def pending (pic : Pic) : Option Nat :=
  ((List.range 8).find? fun line => pic.inService.getLsbD line ||
    (pic.requested.getLsbD line && !pic.mask.getLsbD line)).filter fun line =>
      !pic.inService.getLsbD line

/-- A device requests a line. -/
def raise (pic : Pic) (line : Nat) : Pic :=
  { pic with requested := pic.requested ||| BitVec.twoPow 8 line }

/-- The CPU takes the interrupt of a line. -/
def serve (pic : Pic) (line : Nat) : Pic :=
  { pic with
    requested := pic.requested &&& ~~~BitVec.twoPow 8 line
    inService := pic.inService ||| BitVec.twoPow 8 line }

end Pic

/-- The two controllers. -/
structure Pics where
  master : Pic
  slave : Pic
  deriving DecidableEq, Repr

namespace Pics

/-- A write to a port. -/
def write (pics : Pics) (port value : Nat) : Pics :=
  if port = 0x20 then { pics with master := pics.master.writeCommand value }
  else if port = 0x21 then { pics with master := pics.master.writeData value }
  else if port = 0xa0 then { pics with slave := pics.slave.writeCommand value }
  else if port = 0xa1 then { pics with slave := pics.slave.writeData value }
  else pics

/-- A device requests one of the lines 0 to 15. -/
def raise (pics : Pics) (line : Nat) : Pics :=
  if line < 8 then { pics with master := pics.master.raise line }
  else { pics with slave := pics.slave.raise (line - 8) }

/-- The master while the slave requests line 2 if it has a pending line. -/
def cascaded (pics : Pics) : Pic :=
  if pics.slave.pending.isSome then pics.master.raise 2 else pics.master

/-- The vector of the interrupt that the CPU takes, if there is one.  The slave gives the
vector if the master says that it is connected to the line and the slave has the same
line as its name. -/
def take (pics : Pics) : Option (Nat × Pics) :=
  match pics.cascaded.pending with
  | none => none
  | some line =>
      let master := pics.master.serve line
      if pics.master.cascade.testBit line ∧ pics.slave.cascade = line then
        match pics.slave.pending with
        | none => none
        | some slaveLine => some (pics.slave.offset + slaveLine,
            { master, slave := pics.slave.serve slaveLine })
      else some (pics.master.offset + line, { pics with master })

/-- A line from 0 to 15 is requested. -/
def Requested (pics : Pics) (line : Nat) : Prop :=
  (line < 8 ∧ pics.master.requested.getLsbD line) ∨
    (8 ≤ line ∧ pics.slave.requested.getLsbD (line - 8))

end Pics

/-- The place of a line in the order of priorities.  The lines of the slave come in place of
line 2. -/
def priority (line : Nat) : Nat :=
  if line < 3 then line else if line < 8 then line + 7 else line - 6

/-! ## Interrupts that are taken one at a time -/

/-- The lines of the master that are in service while the interrupt of a line is. -/
def masterServes : Option Nat → BitVec 8
  | none => 0
  | some line => BitVec.twoPow 8 (if line < 8 then line else 2)

def slaveServes : Option Nat → BitVec 8
  | none => 0
  | some line => if line < 8 then 0 else BitVec.twoPow 8 (line - 8)

/-- The controllers as `setup` programs them, with one interrupt in service or none. -/
structure Programmed (pics : Pics) (line : Option Nat) : Prop where
  masterOffset : pics.master.offset = 0x20
  slaveOffset : pics.slave.offset = 0x28
  masterCascade : pics.master.cascade = 4
  slaveCascade : pics.slave.cascade = 2
  masterMask : pics.master.mask = 0
  slaveMask : pics.slave.mask = 0
  masterInService : pics.master.inService = masterServes line
  slaveInService : pics.slave.inService = slaveServes line
  /-- Only the slave requests line 2. -/
  onlySlave : pics.master.requested.getLsbD 2 = false

section Pending

variable {pic : Pic} {line : Nat}

/-- A controller with nothing in service interrupts for its first requested line. -/
theorem pending_of_idle (idle : pic.inService = 0) (unmasked : pic.mask = 0) :
    pic.pending = (List.range 8).find? fun line => pic.requested.getLsbD line := by
  rw [Pic.pending, idle, unmasked]
  cases found : (List.range 8).find? fun line => pic.requested.getLsbD line <;> simp [found]

theorem pending_some (idle : pic.inService = 0) (unmasked : pic.mask = 0)
    (isPending : pic.pending = some line) :
    line < 8 ∧ pic.requested.getLsbD line ∧
      ∀ other, pic.requested.getLsbD other → line ≤ other := by
  rw [pending_of_idle idle unmasked, List.find?_range_eq_some] at isPending
  obtain ⟨requested, inside, first⟩ := isPending
  refine ⟨List.mem_range.mp inside, requested, fun other isRequested => ?_⟩
  by_contra earlier
  have unrequested := first other (Nat.lt_of_not_le earlier)
  simp [isRequested] at unrequested

theorem pending_isSome (idle : pic.inService = 0) (unmasked : pic.mask = 0)
    (requested : pic.requested.getLsbD line) : pic.pending.isSome := by
  rw [pending_of_idle idle unmasked, List.find?_isSome]
  exact ⟨line, List.mem_range.mpr (BitVec.lt_of_getLsbD requested), requested⟩

/-- Only the line that is served is no longer requested. -/
theorem serve_requested {other : Nat} (different : other ≠ line)
    (requested : pic.requested.getLsbD other) : (pic.serve line).requested.getLsbD other := by
  have inside := BitVec.lt_of_getLsbD requested
  rw [Pic.serve, BitVec.getLsbD_and, requested, BitVec.getLsbD_not, BitVec.getLsbD_twoPow,
    decide_eq_false different.symm, decide_eq_true inside, Bool.and_false]
  rfl

end Pending

namespace Programmed

variable {pics after : Pics} {serving : Option Nat} {vector : Nat}

theorem cascaded_requested (pics : Pics) (line : Nat) :
    pics.cascaded.requested.getLsbD line =
      (pics.master.requested.getLsbD line || (decide (line = 2) && pics.slave.pending.isSome)) := by
  rw [Pics.cascaded]
  split
  next isPending => simp [Pic.raise, isPending, BitVec.getLsbD_twoPow, eq_comm]
  next notPending => simp [notPending]

theorem cascaded_inService (pics : Pics) :
    pics.cascaded.inService = pics.master.inService := by
  rw [Pics.cascaded]
  split <;> rfl

theorem cascaded_mask (pics : Pics) : pics.cascaded.mask = pics.master.mask := by
  rw [Pics.cascaded]
  split <;> rfl

/-- Of the lines of the master, the slave is connected to line 2. -/
theorem connected_iff (programmed : Programmed pics serving) {line : Nat} :
    pics.master.cascade.testBit line ∧ pics.slave.cascade = line ↔ line = 2 := by
  rw [programmed.masterCascade, programmed.slaveCascade]
  constructor
  · exact fun connected => connected.2.symm
  · intro isTwo
    subst isTwo
    decide

/-- A line of the master is served. -/
theorem serve_master (programmed : Programmed pics none) {line : Nat} (inside : line < 8) :
    Programmed { pics with master := pics.master.serve line } (some line) := by
  refine { programmed with masterInService := ?_, slaveInService := ?_, onlySlave := ?_ }
  · simp [Pic.serve, programmed.masterInService, masterServes, inside]
  · simp [programmed.slaveInService, slaveServes, inside]
  · change (pics.master.requested &&& ~~~BitVec.twoPow 8 line).getLsbD 2 = false
    rw [BitVec.getLsbD_and, programmed.onlySlave, Bool.false_and]

/-- A line of the slave is served, and line 2 of the master. -/
theorem serve_slave (programmed : Programmed pics none) {slaveLine : Nat}
    (inside : slaveLine < 8) :
    Programmed ⟨pics.master.serve 2, pics.slave.serve slaveLine⟩ (some (slaveLine + 8)) := by
  have notMaster : ¬slaveLine + 8 < 8 := by omega
  refine { programmed with masterInService := ?_, slaveInService := ?_, onlySlave := ?_ }
  · simp [Pic.serve, programmed.masterInService, masterServes, notMaster]
  · simp [Pic.serve, programmed.slaveInService, slaveServes, notMaster]
  · simp [Pic.serve]

/-- The CPU takes the interrupt of the requested line of the highest priority, and the other
lines stay requested. -/
theorem take (programmed : Programmed pics none) (taken : pics.take = some (vector, after)) :
    ∃ line, line < 16 ∧ vector = 0x20 + line ∧ pics.Requested line ∧
      Programmed after (some line) ∧
      (∀ other, pics.Requested other → priority line ≤ priority other) ∧
      ∀ other, other ≠ line → pics.Requested other → after.Requested other := by
  have masterIdle : pics.cascaded.inService = 0 :=
    (cascaded_inService pics).trans programmed.masterInService
  have masterUnmasked : pics.cascaded.mask = 0 :=
    (cascaded_mask pics).trans programmed.masterMask
  rw [Pics.take] at taken
  split at taken
  next => cases taken
  next line isPending =>
    obtain ⟨inside, requested, first⟩ := pending_some masterIdle masterUnmasked isPending
    have before {other : Nat} (isRequested : pics.master.requested.getLsbD other) :
        line ≤ other := first other (by rw [cascaded_requested, isRequested, Bool.true_or])
    simp only [programmed.connected_iff] at taken
    split at taken
    next isTwo =>
      subst isTwo
      split at taken
      next => cases taken
      next slaveLine slavePending =>
        obtain ⟨slaveInside, slaveRequested, slaveFirst⟩ :=
          pending_some programmed.slaveInService programmed.slaveMask slavePending
        cases taken
        refine ⟨slaveLine + 8, by omega, ?_, ?_, programmed.serve_slave slaveInside, ?_, ?_⟩
        · rw [programmed.slaveOffset]
          omega
        · exact Or.inr ⟨by omega, by simpa using slaveRequested⟩
        · intro other isRequested
          cases isRequested with
          | inl ofMaster =>
              have later := before ofMaster.2
              have notTwo : other ≠ 2 := by
                intro isTwo
                rw [isTwo, programmed.onlySlave] at ofMaster
                cases ofMaster.2
              simp only [priority]
              split_ifs <;> omega
          | inr ofSlave =>
              have later := slaveFirst _ ofSlave.2
              simp only [priority]
              split_ifs <;> omega
        · intro other different isRequested
          cases isRequested with
          | inl ofMaster =>
              refine Or.inl ⟨ofMaster.1, serve_requested (fun isTwo => ?_) ofMaster.2⟩
              rw [isTwo, programmed.onlySlave] at ofMaster
              cases ofMaster.2
          | inr ofSlave =>
              exact Or.inr ⟨ofSlave.1, serve_requested (by omega) ofSlave.2⟩
    next notTwo =>
      cases taken
      have ofMaster : pics.master.requested.getLsbD line := by
        rw [cascaded_requested, decide_eq_false notTwo, Bool.false_and, Bool.or_false] at requested
        exact requested
      refine ⟨line, by omega, ?_, Or.inl ⟨inside, ofMaster⟩, programmed.serve_master inside,
        ?_, ?_⟩
      · rw [programmed.masterOffset]
      · intro other isRequested
        cases isRequested with
        | inl ofMaster =>
            have later := before ofMaster.2
            simp only [priority]
            split_ifs <;> omega
        | inr ofSlave =>
            -- A pending slave requests line 2.
            have slavePending :=
              pending_isSome programmed.slaveInService programmed.slaveMask ofSlave.2
            have later := first 2 (by rw [cascaded_requested, slavePending]; simp)
            simp only [priority]
            split_ifs <;> omega
      · intro other different isRequested
        cases isRequested with
        | inl byMaster =>
            exact Or.inl ⟨byMaster.1, serve_requested different byMaster.2⟩
        | inr ofSlave => exact Or.inr ofSlave

/-- If a line is requested, the CPU can take an interrupt. -/
theorem take_isSome (programmed : Programmed pics none) {line : Nat}
    (requested : pics.Requested line) : pics.take.isSome := by
  have masterIdle : pics.cascaded.inService = 0 :=
    (cascaded_inService pics).trans programmed.masterInService
  have masterUnmasked : pics.cascaded.mask = 0 :=
    (cascaded_mask pics).trans programmed.masterMask
  have isPending : pics.cascaded.pending.isSome := by
    cases requested with
    | inl ofMaster =>
        have ofCascade : pics.cascaded.requested.getLsbD line := by
          rw [cascaded_requested, ofMaster.2, Bool.true_or]
        exact pending_isSome masterIdle masterUnmasked ofCascade
    | inr ofSlave =>
        have slavePending :=
          pending_isSome programmed.slaveInService programmed.slaveMask ofSlave.2
        have ofCascade : pics.cascaded.requested.getLsbD 2 := by
          rw [cascaded_requested, slavePending]
          simp
        exact pending_isSome masterIdle masterUnmasked ofCascade
  obtain ⟨chosen, isChosen⟩ := Option.isSome_iff_exists.mp isPending
  obtain ⟨-, chosenRequested, -⟩ := pending_some masterIdle masterUnmasked isChosen
  rw [Pics.take, isChosen]
  simp only [programmed.connected_iff]
  split
  next isTwo =>
    rw [isTwo, cascaded_requested, programmed.onlySlave, Bool.false_or, decide_eq_true rfl,
      Bool.true_and] at chosenRequested
    obtain ⟨slaveLine, slavePending⟩ := Option.isSome_iff_exists.mp chosenRequested
    rw [slavePending]
    rfl
  next => rfl

/-- A further line is requested. -/
theorem raise (programmed : Programmed pics serving) {line : Nat} (notTwo : line ≠ 2) :
    Programmed (pics.raise line) serving := by
  rw [Pics.raise]
  split
  next =>
    refine { programmed with onlySlave := ?_ }
    change (pics.master.requested ||| BitVec.twoPow 8 line).getLsbD 2 = false
    rw [BitVec.getLsbD_or, programmed.onlySlave, Bool.false_or, BitVec.getLsbD_twoPow,
      decide_eq_false notTwo, Bool.and_false]
  next => exact { programmed with }

/-- What is requested stays so. -/
theorem raise_requested {line other : Nat} (requested : pics.Requested other) :
    (pics.raise line).Requested other := by
  rw [Pics.raise]
  cases requested with
  | inl ofMaster =>
      refine Or.inl ⟨ofMaster.1, ?_⟩
      split
      next =>
        change (pics.master.requested ||| BitVec.twoPow 8 line).getLsbD other
        rw [BitVec.getLsbD_or, ofMaster.2, Bool.true_or]
      next => exact ofMaster.2
  | inr ofSlave =>
      refine Or.inr ⟨ofSlave.1, ?_⟩
      split
      next => exact ofSlave.2
      next =>
        change (pics.slave.requested ||| BitVec.twoPow 8 (line - 8)).getLsbD (other - 8)
        rw [BitVec.getLsbD_or, ofSlave.2, Bool.true_or]

theorem clear_lowest : ∀ line < 8,
    BitVec.twoPow 8 line &&& (BitVec.twoPow 8 line - 1) = 0 := by
  decide

/-- The interrupt of a line of the master has ended. -/
theorem endOfInterrupt {line : Nat} (programmed : Programmed pics (some line))
    (ofMaster : line < 8) : Programmed (pics.write 0x20 0x20) none := by
  refine { programmed with masterInService := ?_, slaveInService := ?_ }
  · change pics.master.inService &&& (pics.master.inService - 1) = 0
    rw [programmed.masterInService, masterServes, if_pos ofMaster, clear_lowest line ofMaster]
  · rw [slaveServes]
    have idle := programmed.slaveInService
    rw [slaveServes, if_pos ofMaster] at idle
    exact idle

end Programmed

end SatanKernel.X86
