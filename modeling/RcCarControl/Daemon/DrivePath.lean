import RcCarControl.Daemon.RccDaemon
import RcCarControl.Fpga.StreamOrder

/-!
# From the network to the servo pulses

The daemon of `sw/daemon/rcc_daemon.cpp` beside the clocks of `sys_ctrl_axi` and `pwm_gen`.  The register writes of `main`
and of the drive data thread wait on the bus, and each arrives at some later clock, with any number of clocks and any other
events between the two writes of a command.

As long as no full datagram finds the drive service without a holder, which is undefined, nothing that arrives from the
network disturbs the pulses (`pulses_of_commands`): from the clock in which the PWM is enabled on, a period lasts 830000
clocks, in each of them an output is high up to the count of one command and then low, and that command is the last one of
the holder of the drive service, or the one before while the last one is on the bus.
-/

namespace RcCarControl

open Interface Fpga Lts

/-! ### One period after the other -/

namespace Fpga.PwmGen

/-- The generator `n` clocks after it was enabled with period `P`; `active` are the active times of the period. -/
structure Counting (P : BitVec 24) (n : Nat) (active : PwmChannel → BitVec 24) (g : PwmGen) : Prop where
  mainCnt : g.mainCnt.toNat = n % P.toNat
  rPeriod : g.rPeriod = P
  rActive : n % P.toNat ≠ 0 → g.rActive = active

variable {P : BitVec 24} {n : Nat} {active : PwmChannel → BitVec 24} {g : PwmGen} {i : PwmIn}

theorem clock_keeps_regs (h0 : g.mainCnt ≠ 0) (he : i.enable = true) :
    (g.clock i).rPeriod = g.rPeriod ∧ (g.clock i).rActive = g.rActive := by
  unfold clock
  simp only [he, if_true, if_neg h0, and_self]

/-- The first clock of a period loads what is on the inputs. -/
theorem Counting.first (h : Counting P n active g) (hP : 2 ≤ P.toNat) (he : i.enable = true) (hi : i.period = P)
    (hn : n % P.toNat = 0) : Counting P (n + 1) i.active (g.clock i) := by
  have h0 : g.mainCnt = 0 := BitVec.eq_of_toNat_eq (h.mainCnt.trans hn)
  obtain ⟨hperiod, hactive, hcnt⟩ := clock_zero h0 he
  have hne : g.rPeriod ≠ 1 := by
    rw [h.rPeriod]
    rintro rfl
    exact absurd hP (by decide)
  rw [if_neg hne] at hcnt
  refine ⟨?_, hperiod.trans hi, fun _ => hactive⟩
  rw [hcnt]
  obtain ⟨hlast, -⟩ | ⟨-, hmod⟩ := mod_succ (t := n) (show 1 ≤ P.toNat by omega)
  · omega
  · rw [hmod, hn]
    rfl

/-- The others keep it. -/
theorem Counting.later (h : Counting P n active g) (hP : 2 ≤ P.toNat) (he : i.enable = true) (hn : n % P.toNat ≠ 0) :
    Counting P (n + 1) active (g.clock i) := by
  have hcnt := h.mainCnt
  have h0 : g.mainCnt ≠ 0 := by
    intro h0
    rw [h0] at hcnt
    exact hn hcnt.symm
  obtain ⟨hperiod, hactive⟩ := clock_keeps_regs h0 he
  refine ⟨?_, hperiod.trans h.rPeriod, fun _ => hactive.trans (h.rActive hn)⟩
  obtain ⟨hlast, hmod⟩ | ⟨hmore, hmod⟩ := mod_succ (t := n) (show 1 ≤ P.toNat by omega)
  · rw [clock_last h.rPeriod he (by omega), hmod]
    rfl
  · rw [(clock_counting h.rPeriod he (by omega) (by omega)).1, hcnt, hmod]

/-- The output is high up to the active time of the period; in the first clock it is high whatever that is. -/
theorem Counting.pwmO (h : Counting P n active g) (he : i.enable = true) (c : PwmChannel) :
    g.pwmO i c = decide (n % P.toNat ≤ (active c).toNat) := by
  unfold PwmGen.pwmO
  simp only [he, Bool.true_and, BitVec.le_def, h.mainCnt]
  by_cases h0 : n % P.toNat = 0
  · simp [h0]
  · rw [h.rActive h0]

end Fpga.PwmGen

namespace Daemon

open LittleEndian

/-! ### The daemon and the clocks -/

/-- Whose write arrives. -/
inductive Writer
  | main
  | driveReadThread

structure DrivePath where
  mySysCtrl : SysCtrlRegs
  pwmGen : PwmGen
  myServer : Server
  /-- The writes of `main` and of the drive data thread that are on the bus. -/
  enabling : List RegWrite
  driving : List RegWrite

inductive PathEvent
  | server (e : Event)
  | pwmEnable
  | clock (writer : Option Writer)

/-- A register write arrives. -/
def DrivePath.arrive (s : DrivePath) : Option Writer → Option DrivePath
  | none => some s
  | some .main =>
    match s.enabling with
    | [] => none
    | w :: ws => some { s with mySysCtrl := s.mySysCtrl.write (some w), enabling := ws }
  | some .driveReadThread =>
    match s.driving with
    | [] => none
    | w :: ws => some { s with mySysCtrl := s.mySysCtrl.write (some w), driving := ws }

/-- A thread goes on when its writes have arrived.  `none` is an event that cannot happen, or undefined behaviour. -/
def DrivePath.step (ver : BitVec 32) (video : VideoMeas) (s : DrivePath) : PathEvent → Option DrivePath
  | .pwmEnable => if s.enabling = [] then some { s with enabling := Daemon.pwmEnable ver video s.mySysCtrl } else none
  | .server e =>
    (s.myServer.step e).bind fun srv =>
      match e with
      | .datagram sockAddr bytes =>
        if s.driving = [] then
          (driveData ver video s.mySysCtrl (driveRead s.myServer sockAddr bytes).2).map fun ws =>
            { s with myServer := srv, driving := ws }
        else none
      | _ => some { s with myServer := srv }
  | .clock writer => (s.arrive writer).map fun t => { t with pwmGen := s.pwmGen.clock s.mySysCtrl.pwmIn }

/-- When `openServer` has returned, with the registers and the generator as they were before the constructor. -/
def DrivePath.start (regs : SysCtrlRegs) (pwmGen : PwmGen) (env : OpenEnv) : DrivePath :=
  ⟨writeRegs regs [(SysCtrl.pwmPeriod, 830000)], pwmGen, started env, [], []⟩

/-- One clock: the inputs and outputs of the generator, and the number of commands that had come before. -/
structure ClockSeen where
  input : PwmIn
  output : PwmChannel → Bool
  commands : Nat

/-- The holder of the drive service, the full messages of a holder that came while the PWM ran, and the clocks; in the first
`off` of them the PWM was not enabled. -/
structure PathLog where
  holder : Option SockaddrIn
  commands : List MsgDrvCtrl
  clocks : List ClockSeen
  off : Nat

def PathLog.start : PathLog := ⟨none, [], [], 0⟩

/-- The command in an event of the server. -/
def holderMessage (running : Bool) (holder : Option SockaddrIn) : Event → Option MsgDrvCtrl
  | .datagram sockAddr bytes =>
    if holder = some sockAddr ∧ msgDrvCtrlSize ≤ bytes.length ∧ running = true then
      some (MsgDrvCtrl.ofBytes (bytes.take msgDrvCtrlSize))
    else none
  | _ => none

def PathLog.note (s : DrivePath) (e : PathEvent) (g : PathLog) : PathLog :=
  match e with
  | .pwmEnable => g
  | .server e =>
    { g with
      holder := noteHolder s.myServer e g.holder
      commands := g.commands ++ (holderMessage s.mySysCtrl.pwmEnable g.holder e).toList }
  | .clock _ =>
    { g with
      clocks := g.clocks ++ [⟨s.mySysCtrl.pwmIn, s.pwmGen.pwmO s.mySysCtrl.pwmIn, g.commands.length⟩]
      off := g.off + (!s.mySysCtrl.pwmEnable).toNat }

namespace DrivePath

abbrev Logged := DrivePath × PathLog

def Logged.step (ver : BitVec 32) (video : VideoMeas) : Logged → PathEvent → Option Logged :=
  withGhost (DrivePath.step ver video) PathLog.note

/-! ### The commands -/

def activeReg : PwmChannel → BitVec 3
  | .pwm0 => SysCtrl.pwmActive0
  | .pwm1 => SysCtrl.pwmActive1

def value (m : MsgDrvCtrl) : PwmChannel → Int
  | .pwm0 => m.drive.toInt
  | .pwm1 => m.steer.toInt

/-- An active time is the count of the last command, or that of the start. -/
def Shows (regs : SysCtrlRegs) (commands : List MsgDrvCtrl) (c : PwmChannel) (active : BitVec 24) : Prop :=
  match commands.getLast? with
  | none => active = regs.pwmIn.active c
  | some m => (active.toNat : Int) = pulseCnt (value m c)

/-- The commands whose write for a channel has arrived. -/
def settled (driving : List RegWrite) (commands : List MsgDrvCtrl) (c : PwmChannel) : List MsgDrvCtrl :=
  if activeReg c ∈ driving.map Prod.fst then commands.dropLast else commands

structure Commanded (regs : SysCtrlRegs) (s : Logged) : Prop where
  drive : DriveInv (s.1.myServer, s.2.holder)
  period : s.1.mySysCtrl.pwmPeriod = 830000
  enabling : ∀ w ∈ s.1.enabling, w.1 = SysCtrl.pwmCtrlStatus ∧ w.2.getLsbD 0 = true
  driving : s.1.driving = [] ∨
    ∃ m ∈ s.2.commands.getLast?, s.1.driving = driveWrites m ∨ s.1.driving = (driveWrites m).tail
  active : ∀ c, Shows regs (settled s.1.driving s.2.commands c) c (s.1.mySysCtrl.pwmIn.active c)

variable {ver : BitVec 32} {video : VideoMeas} {regs : SysCtrlRegs} {s t : DrivePath} {g : PathLog}

theorem Shows.concat {commands : List MsgDrvCtrl} {m : MsgDrvCtrl} {c : PwmChannel} {active : BitVec 24}
    (h : (active.toNat : Int) = pulseCnt (value m c)) (hm : m ∈ commands.getLast?) : Shows regs commands c active := by
  unfold Shows
  rw [Option.mem_def.1 hm]
  exact h

/-- The two writes of a command arrive one after the other. -/
theorem Commanded.arrive_drive {w : RegWrite} {ws : List RegWrite} (h : Commanded regs (s, g)) (hd : s.driving = w :: ws) :
    Commanded regs ({ s with mySysCtrl := s.mySysCtrl.write (some w), driving := ws }, g) ∧
      (s.mySysCtrl.write (some w)).pwmEnable = s.mySysCtrl.pwmEnable := by
  have hactive := h.active
  obtain hnil | ⟨m, hm, hboth | hone⟩ := h.driving
  · rw [show s.driving = [] from hnil] at hd
    cases hd
  · rw [show s.driving = driveWrites m from hboth] at hd
    obtain ⟨rfl, rfl⟩ := List.cons.inj hd
    refine ⟨⟨h.drive, h.period, h.enabling, .inr ⟨m, hm, .inr rfl⟩, fun c => ?_⟩, rfl⟩
    cases c with
    | pwm0 => exact Shows.concat (toNat_pulseCnt _) hm
    | pwm1 =>
      have hold := hactive .pwm1
      rw [show s.driving = driveWrites m from hboth] at hold
      exact hold
  · rw [show s.driving = (driveWrites m).tail from hone] at hd
    obtain ⟨rfl, rfl⟩ := List.cons.inj hd
    refine ⟨⟨h.drive, h.period, h.enabling, .inl rfl, fun c => ?_⟩, rfl⟩
    cases c with
    | pwm0 =>
      have hold := hactive .pwm0
      rw [show s.driving = (driveWrites m).tail from hone] at hold
      exact hold
    | pwm1 => exact Shows.concat (toNat_pulseCnt _) hm

/-- Whichever write arrives, the PWM stays enabled. -/
theorem Commanded.arrive {writer : Option Writer} (h : Commanded regs (s, g)) (ha : s.arrive writer = some t) :
    Commanded regs (t, g) ∧ (s.mySysCtrl.pwmEnable = true → t.mySysCtrl.pwmEnable = true) := by
  match writer with
  | none =>
    obtain rfl := Option.some.inj ha
    exact ⟨h, id⟩
  | some .main =>
    cases hw : s.enabling with
    | nil =>
      rw [DrivePath.arrive, hw] at ha
      cases ha
    | cons w ws =>
      rw [DrivePath.arrive, hw] at ha
      obtain rfl := Option.some.inj ha
      have henabling := h.enabling
      rw [show s.enabling = w :: ws from hw] at henabling
      obtain ⟨waddr, wdata⟩ := w
      obtain ⟨rfl, hbit⟩ := henabling _ List.mem_cons_self
      exact ⟨⟨h.drive, h.period, fun w' hw' => henabling w' (List.mem_cons_of_mem _ hw'), h.driving, h.active⟩,
        fun _ => hbit⟩
  | some .driveReadThread =>
    cases hw : s.driving with
    | nil =>
      rw [DrivePath.arrive, hw] at ha
      cases ha
    | cons w ws =>
      rw [DrivePath.arrive, hw] at ha
      obtain rfl := Option.some.inj ha
      obtain ⟨hc, hsame⟩ := h.arrive_drive hw
      exact ⟨hc, fun he => hsame.trans he⟩

/-- The drive data thread reads a datagram when the writes of the one before have arrived. -/
theorem Commanded.datagram (h : Commanded regs (s, g)) (hd : s.driving = []) {srv : Server} {sockAddr : SockaddrIn}
    {bytes : List Byte} {ws : List RegWrite}
    (hdrive : DriveInv (srv, noteHolder s.myServer (.datagram sockAddr bytes) g.holder))
    (hws : driveData ver video s.mySysCtrl (driveRead s.myServer sockAddr bytes).2 = some ws) :
    Commanded regs ({ s with myServer := srv, driving := ws }, g.note s (.server (.datagram sockAddr bytes))) := by
  have hactive : ∀ c, Shows regs g.commands c (s.mySysCtrl.pwmIn.active c) := by
    intro c
    have hold := h.active c
    rw [show (s, g).1.driving = [] from hd] at hold
    exact hold
  have hcases := driveData_cases h.drive hws
  have hnote : (g.note s (.server (.datagram sockAddr bytes))).commands =
      g.commands ++ (holderMessage s.mySysCtrl.pwmEnable g.holder (.datagram sockAddr bytes)).toList := rfl
  by_cases hc : g.holder = some sockAddr ∧ msgDrvCtrlSize ≤ bytes.length ∧ s.mySysCtrl.pwmEnable = true
  · rw [if_pos hc] at hcases
    rw [holderMessage, if_pos hc] at hnote
    refine ⟨hdrive, h.period, h.enabling, .inr ⟨_, ?_, .inl hcases⟩, fun c => ?_⟩
    · rw [hnote]
      exact List.getLast?_concat
    · have hsettled : settled ws (g.note s (.server (.datagram sockAddr bytes))).commands c = g.commands := by
        rw [hnote, hcases, settled, if_pos (by cases c <;> simp [driveWrites, activeReg])]
        exact List.dropLast_concat
      rw [hsettled]
      exact hactive c
  · rw [if_neg hc] at hcases
    rw [holderMessage, if_neg hc, Option.toList_none, List.append_nil] at hnote
    refine ⟨hdrive, h.period, h.enabling, .inl hcases, fun c => ?_⟩
    have hsettled : settled ws (g.note s (.server (.datagram sockAddr bytes))).commands c = g.commands := by
      rw [hnote, hcases]
      rfl
    rw [hsettled]
    exact hactive c

theorem Commanded.step {u v : Logged} {e : PathEvent} (h : Commanded regs u) (hv : Logged.step ver video u e = some v) :
    Commanded regs v := by
  obtain ⟨s, g⟩ := u
  obtain ⟨t, g'⟩ := v
  obtain ⟨hv, rfl⟩ := withGhost_eq_some.1 hv
  cases e with
  | pwmEnable =>
    simp only [DrivePath.step] at hv
    split_ifs at hv
    obtain rfl := Option.some.inj hv
    refine ⟨h.drive, h.period, fun w hw => ?_, h.driving, h.active⟩
    obtain rfl := List.mem_singleton.1 hw
    exact ⟨rfl, by simp [pwmCtrlStatEnable]⟩
  | clock writer =>
    obtain ⟨u, hu, rfl⟩ := Option.map_eq_some_iff.1 hv
    obtain ⟨hc, -⟩ := h.arrive hu
    exact ⟨hc.drive, hc.period, hc.enabling, hc.driving, hc.active⟩
  | server e =>
    obtain ⟨srv, hsrv, hv⟩ := Option.bind_eq_some_iff.1 hv
    have hdrive : DriveInv (srv, noteHolder s.myServer e g.holder) :=
      DriveInv.step h.drive (withGhost_eq_some.2 ⟨hsrv, rfl⟩)
    cases e with
    | datagram sockAddr bytes =>
      simp only at hv
      split_ifs at hv with hd
      obtain ⟨ws, hws, rfl⟩ := Option.map_eq_some_iff.1 hv
      exact h.datagram hd hdrive hws
    | accept fd resolved name =>
      obtain rfl := Option.some.inj hv
      have hsame : (g.note s (.server (.accept fd resolved name))).commands = g.commands := List.append_nil _
      refine ⟨hdrive, h.period, h.enabling, ?_, ?_⟩
      · rw [hsame]
        exact h.driving
      · rw [hsame]
        exact h.active
    | process i w =>
      obtain rfl := Option.some.inj hv
      have hsame : (g.note s (.server (.process i w))).commands = g.commands := List.append_nil _
      refine ⟨hdrive, h.period, h.enabling, ?_, ?_⟩
      · rw [hsame]
        exact h.driving
      · rw [hsame]
        exact h.active

/-! ### The clocks -/

/-- Clock `k` of a run: its active times are those of commands, and its outputs are in the period they belong to. -/
structure Seen (regs : SysCtrlRegs) (g : PathLog) (k : Nat) (x : ClockSeen) : Prop where
  known : x.commands ≤ g.commands.length
  active : ∀ c, ∃ n, n ≤ x.commands ∧ x.commands ≤ n + 1 ∧ Shows regs (g.commands.take n) c (x.input.active c)
  low : k < g.off → ∀ c, x.output c = false
  pulse : g.off ≤ k → ∃ y, g.clocks[g.off + 830000 * ((k - g.off) / 830000)]? = some y ∧
    ∀ c, x.output c = decide ((k - g.off) % 830000 ≤ (y.input.active c).toNat)

/-- The generator is in the period that the clocks show. -/
structure Timed (regs : SysCtrlRegs) (s : Logged) : Prop where
  off : s.1.mySysCtrl.pwmEnable = false → s.2.off = s.2.clocks.length
  on : s.1.mySysCtrl.pwmEnable = true → s.2.off ≤ s.2.clocks.length ∧
    ∃ active, s.1.pwmGen.Counting 830000 (s.2.clocks.length - s.2.off) active ∧
      ((s.2.clocks.length - s.2.off) % 830000 ≠ 0 →
        ∃ y, s.2.clocks[s.2.off + 830000 * ((s.2.clocks.length - s.2.off) / 830000)]? = some y ∧ y.input.active = active)
  seen : ∀ k x, s.2.clocks[k]? = some x → Seen regs s.2 k x

theorem Shows.take {commands more : List MsgDrvCtrl} {c : PwmChannel} {active : BitVec 24} {n : Nat}
    (hn : n ≤ commands.length) (h : Shows regs (commands.take n) c active) :
    Shows regs ((commands ++ more).take n) c active := by
  rwa [List.take_append_of_le_length hn]

/-- Commands that come later change nothing in the clocks before. -/
theorem Seen.commands {k : Nat} {x : ClockSeen} (h : Seen regs g k x) (holder : Option SockaddrIn) (more : List MsgDrvCtrl) :
    Seen regs { g with holder := holder, commands := g.commands ++ more } k x where
  known := by
    have := h.known
    simp only [List.length_append]
    omega
  active c := by
    obtain ⟨n, hle, hlt, hshows⟩ := h.active c
    exact ⟨n, hle, hlt, hshows.take (hle.trans h.known)⟩
  low := h.low
  pulse := h.pulse

/-- What the generator is given in a clock. -/
theorem Commanded.shows (h : Commanded regs (s, g)) (c : PwmChannel) : ∃ n, n ≤ g.commands.length ∧
    g.commands.length ≤ n + 1 ∧ Shows regs (g.commands.take n) c (s.mySysCtrl.pwmIn.active c) := by
  have hactive : Shows regs (settled s.driving g.commands c) c (s.mySysCtrl.pwmIn.active c) := h.active c
  unfold settled at hactive
  split_ifs at hactive
  · exact ⟨g.commands.length - 1, by omega, by omega, by rwa [← List.dropLast_eq_take]⟩
  · exact ⟨g.commands.length, le_rfl, by omega, by rwa [List.take_length]⟩

theorem note_off (g : PathLog) (he : s.mySysCtrl.pwmEnable = false) (writer : Option Writer) :
    (g.note s (.clock writer)).off = g.off + 1 := by simp [PathLog.note, he]

theorem note_on (g : PathLog) (he : s.mySysCtrl.pwmEnable = true) (writer : Option Writer) :
    (g.note s (.clock writer)).off = g.off := by simp [PathLog.note, he]

theorem note_clocks (g : PathLog) (s : DrivePath) (writer : Option Writer) : (g.note s (.clock writer)).clocks =
    g.clocks ++ [⟨s.mySysCtrl.pwmIn, s.pwmGen.pwmO s.mySysCtrl.pwmIn, g.commands.length⟩] := rfl

theorem note_clocks_length (g : PathLog) (s : DrivePath) (writer : Option Writer) :
    (g.note s (.clock writer)).clocks.length = g.clocks.length + 1 := List.length_append

/-- A clock more changes nothing in the clocks before. -/
theorem Timed.seen_before (h : Timed regs (s, g)) {k : Nat} {x : ClockSeen} (hx : g.clocks[k]? = some x)
    (writer : Option Writer) : Seen regs (g.note s (.clock writer)) k x := by
  have hseen : Seen regs g k x := h.seen k x hx
  have hk : k < g.clocks.length := (List.getElem?_eq_some_iff.1 hx).1
  cases he : s.mySysCtrl.pwmEnable with
  | false =>
    have hoff : g.off = g.clocks.length := h.off he
    refine ⟨hseen.known, hseen.active, fun _ => hseen.low (by omega), fun hle => ?_⟩
    rw [note_off g he] at hle
    omega
  | true =>
    refine ⟨hseen.known, hseen.active, fun hlow => ?_, fun hle => ?_⟩
    · rw [note_on g he] at hlow
      exact hseen.low hlow
    · rw [note_on g he] at hle ⊢
      obtain ⟨y, hy, hout⟩ := hseen.pulse hle
      refine ⟨y, ?_, hout⟩
      rw [note_clocks, List.getElem?_append_left (List.getElem?_eq_some_iff.1 hy).1]
      exact hy

/-- A clock before the PWM is enabled. -/
theorem Timed.clock_off (hc : Commanded regs (s, g)) (h : Timed regs (s, g)) (he : s.mySysCtrl.pwmEnable = false)
    (writer : Option Writer) (t : DrivePath) :
    Timed regs ({ t with pwmGen := s.pwmGen.clock s.mySysCtrl.pwmIn }, g.note s (.clock writer)) := by
  have hin : s.mySysCtrl.pwmIn.enable = false := he
  have hoff : g.off = g.clocks.length := h.off he
  have hend : (g.note s (.clock writer)).off = (g.note s (.clock writer)).clocks.length := by
    rw [note_off g he, note_clocks_length, hoff]
  have hzero : (g.note s (.clock writer)).clocks.length - (g.note s (.clock writer)).off = 0 := by omega
  refine ⟨fun _ => hend, fun _ => ⟨hend.le, s.mySysCtrl.pwmIn.active, ?_, fun hne => ?_⟩, fun k x hx => ?_⟩
  · rw [hzero]
    refine ⟨?_, ?_, fun _ => ?_⟩
    · simp [PwmGen.clock, hin]
    · simp only [PwmGen.clock, hin]
      exact hc.period
    · simp [PwmGen.clock, hin]
  · rw [hzero] at hne
    exact absurd rfl hne
  · rw [note_clocks] at hx
    obtain hold | ⟨rfl, hnew⟩ := getElem?_append_toList (o := some _) hx
    · exact h.seen_before hold writer
    · obtain rfl := Option.some.inj hnew
      refine ⟨le_rfl, hc.shows, fun _ c => ?_, fun hle => ?_⟩
      · simp [PwmGen.pwmO, hin]
      · rw [hend, note_clocks_length] at hle
        omega

/-- The clock that began the period of this one, and the generator before and behind it. -/
theorem Timed.period (hc : Commanded regs (s, g)) (h : Timed regs (s, g)) (he : s.mySysCtrl.pwmEnable = true)
    (writer : Option Writer) : ∃ y,
    (g.note s (.clock writer)).clocks[g.off + 830000 * ((g.clocks.length - g.off) / 830000)]? = some y ∧
      s.pwmGen.Counting 830000 (g.clocks.length - g.off) y.input.active ∧
      (s.pwmGen.clock s.mySysCtrl.pwmIn).Counting 830000 (g.clocks.length - g.off + 1) y.input.active := by
  obtain ⟨hle, active, hcount, hloaded⟩ := h.on he
  have hle' : g.off ≤ g.clocks.length := hle
  by_cases h0 : (g.clocks.length - g.off) % 830000 = 0
  · refine ⟨⟨s.mySysCtrl.pwmIn, s.pwmGen.pwmO s.mySysCtrl.pwmIn, g.commands.length⟩, ?_,
      ⟨hcount.mainCnt, hcount.rPeriod, fun hne => absurd h0 hne⟩, hcount.first (by decide) he hc.period h0⟩
    have hindex : g.off + 830000 * ((g.clocks.length - g.off) / 830000) = g.clocks.length := by omega
    rw [hindex, note_clocks]
    exact List.getElem?_concat_length
  · obtain ⟨y, hy, rfl⟩ := hloaded h0
    refine ⟨y, ?_, hcount, hcount.later (by decide) he h0⟩
    have hbefore := (List.getElem?_eq_some_iff.1 hy).1
    rw [note_clocks, List.getElem?_append_left hbefore]
    exact hy

/-- A clock of a period. -/
theorem Timed.clock_on (hc : Commanded regs (s, g)) (h : Timed regs (s, g)) (he : s.mySysCtrl.pwmEnable = true)
    (writer : Option Writer) {t : DrivePath} (ht : t.mySysCtrl.pwmEnable = true) :
    Timed regs ({ t with pwmGen := s.pwmGen.clock s.mySysCtrl.pwmIn }, g.note s (.clock writer)) := by
  have hle : g.off ≤ g.clocks.length := (h.on he).1
  obtain ⟨y, hy, hnow, hnext⟩ := h.period hc he writer
  have hlen : (g.note s (.clock writer)).clocks.length - (g.note s (.clock writer)).off = g.clocks.length - g.off + 1 := by
    rw [note_on g he, note_clocks_length]
    omega
  refine ⟨fun hoff => ?_, fun _ => ⟨?_, y.input.active, ?_, fun hne => ⟨y, ?_, rfl⟩⟩, fun k x hx => ?_⟩
  · rw [show t.mySysCtrl.pwmEnable = false from hoff] at ht
    cases ht
  · rw [note_on g he, note_clocks_length]
    omega
  · rw [hlen]
    exact hnext
  · rw [hlen] at hne ⊢
    have hsame : (g.clocks.length - g.off + 1) / 830000 = (g.clocks.length - g.off) / 830000 := by omega
    rw [hsame, note_on g he]
    exact hy
  · rw [note_clocks] at hx
    obtain hold | ⟨rfl, hnew⟩ := getElem?_append_toList (o := some _) hx
    · exact h.seen_before hold writer
    · obtain rfl := Option.some.inj hnew
      refine ⟨le_rfl, hc.shows, fun hlow => ?_, fun _ => ⟨y, ?_, fun c => ?_⟩⟩
      · rw [note_on g he] at hlow
        omega
      · rw [note_on g he]
        exact hy
      · rw [note_on g he]
        exact hnow.pwmO he c

theorem Timed.step {u v : Logged} {e : PathEvent} (hc : Commanded regs u) (h : Timed regs u)
    (hv : Logged.step ver video u e = some v) : Timed regs v := by
  obtain ⟨s, g⟩ := u
  obtain ⟨t, g'⟩ := v
  obtain ⟨hv, rfl⟩ := withGhost_eq_some.1 hv
  cases e with
  | pwmEnable =>
    simp only [DrivePath.step] at hv
    split_ifs at hv
    obtain rfl := Option.some.inj hv
    exact ⟨h.off, h.on, h.seen⟩
  | clock writer =>
    obtain ⟨u, hu, rfl⟩ := Option.map_eq_some_iff.1 hv
    cases he : s.mySysCtrl.pwmEnable with
    | false => exact h.clock_off hc he writer u
    | true => exact h.clock_on hc he writer ((hc.arrive hu).2 he)
  | server e =>
    obtain ⟨srv, -, hv⟩ := Option.bind_eq_some_iff.1 hv
    have hseen : ∀ k x, g.clocks[k]? = some x → Seen regs (g.note s (.server e)) k x := by
      intro k x hx
      exact (h.seen k x hx).commands _ _
    have hsame : t.mySysCtrl = s.mySysCtrl ∧ t.pwmGen = s.pwmGen := by
      cases e with
      | datagram sockAddr bytes =>
        simp only at hv
        split_ifs at hv
        obtain ⟨ws, -, rfl⟩ := Option.map_eq_some_iff.1 hv
        exact ⟨rfl, rfl⟩
      | accept fd resolved name =>
        obtain rfl := Option.some.inj hv
        exact ⟨rfl, rfl⟩
      | process i w =>
        obtain rfl := Option.some.inj hv
        exact ⟨rfl, rfl⟩
    refine ⟨fun hoff => ?_, fun hon => ?_, hseen⟩
    · rw [show t.mySysCtrl.pwmEnable = s.mySysCtrl.pwmEnable from congrArg _ hsame.1] at hoff
      exact h.off hoff
    · rw [show t.mySysCtrl.pwmEnable = s.mySysCtrl.pwmEnable from congrArg _ hsame.1] at hon
      rw [show t.pwmGen = s.pwmGen from hsame.2]
      exact h.on hon

/-! ### Runs -/

theorem commanded_start (regs : SysCtrlRegs) (pwmGen : PwmGen) (env : OpenEnv) :
    Commanded regs (.start regs pwmGen env, .start) where
  drive := driveInv_started env
  period := rfl
  enabling w hw := by cases hw
  driving := .inl rfl
  active c := by cases c <;> rfl

theorem timed_start {regs : SysCtrlRegs} (hoff : regs.pwmEnable = false) (pwmGen : PwmGen) (env : OpenEnv) :
    Timed regs (.start regs pwmGen env, .start) where
  off _ := rfl
  on he := by
    rw [show (start regs pwmGen env).mySysCtrl.pwmEnable = regs.pwmEnable from rfl, hoff] at he
    cases he
  seen k x hx := by cases hx

theorem run_timed {regs : SysCtrlRegs} (hoff : regs.pwmEnable = false) (pwmGen : PwmGen) (env : OpenEnv)
    {es : List PathEvent} {t : Logged} (h : exec (Logged.step ver video) (.start regs pwmGen env, .start) es = some t) :
    Timed regs t := by
  have hkeep (s : Logged) (e : PathEvent) (t : Logged) (hi : Commanded regs s ∧ Timed regs s)
      (ht : Logged.step ver video s e = some t) : Commanded regs t ∧ Timed regs t := ⟨hi.1.step ht, hi.2.step hi.1 ht⟩
  exact (exec_invariant' hkeep ⟨commanded_start regs pwmGen env, timed_start hoff pwmGen env⟩ h).2

/-- The count of a command gives a pulse of 1 to 1.8 ms. -/
theorem Shows.bounds {regs : SysCtrlRegs} {commands : List MsgDrvCtrl} {c : PwmChannel} {active : BitVec 24}
    (h : Shows regs commands c active) (hne : commands ≠ []) : 50000 ≤ active.toNat ∧ active.toNat ≤ 90000 := by
  unfold Shows at h
  rw [List.getLast?_eq_some_getLast hne] at h
  have hcnt : (active.toNat : Int) = pulseCnt (value (commands.getLast hne) c) := h
  have hb := pulseCnt_bounds (value (commands.getLast hne) c)
  omega

/-- In every run that starts with the PWM off, whatever requests and datagrams arrive, but for a full datagram without a
holder, and whenever the writes do: the outputs are low until the PWM is enabled, and from that clock on each of them is high
in a period of 830000 clocks up to the active time that the generator was given in its first clock.  That one is the count of
the last command that had come by then, or of the one before, which is between 50000 and 90000, or without any the active
time of the start.  A command is a full message of the holder that comes while the PWM runs. -/
theorem pulses_of_commands {regs : SysCtrlRegs} (hoff : regs.pwmEnable = false) (pwmGen : PwmGen) (env : OpenEnv)
    {es : List PathEvent} {t : Logged} (h : exec (Logged.step ver video) (.start regs pwmGen env, .start) es = some t)
    {k : Nat} {x : ClockSeen} (hk : t.2.clocks[k]? = some x) (c : PwmChannel) :
    (k < t.2.off → x.output c = false) ∧
      (t.2.off ≤ k → ∃ y n, t.2.clocks[t.2.off + 830000 * ((k - t.2.off) / 830000)]? = some y ∧
        (x.output c = true ↔ (k - t.2.off) % 830000 ≤ (y.input.active c).toNat) ∧
        (n ≤ y.commands ∧ y.commands ≤ n + 1 ∧ y.commands ≤ t.2.commands.length) ∧
        Shows regs (t.2.commands.take n) c (y.input.active c) ∧
        (0 < n → 50000 ≤ (y.input.active c).toNat ∧ (y.input.active c).toNat ≤ 90000)) := by
  have htimed := run_timed hoff pwmGen env h
  have hseen := htimed.seen k x hk
  refine ⟨fun hlow => hseen.low hlow c, fun hle => ?_⟩
  obtain ⟨y, hy, hout⟩ := hseen.pulse hle
  have hyseen := htimed.seen _ y hy
  obtain ⟨n, hn, hn', hshows⟩ := hyseen.active c
  refine ⟨y, n, hy, ?_, ⟨hn, hn', hyseen.known⟩, hshows, fun hpos => hshows.bounds fun hnil => ?_⟩
  · rw [hout c, decide_eq_true_eq]
  · have hlen := congrArg List.length hnil
    have hknown := hyseen.known
    rw [List.length_take, List.length_nil] at hlen
    omega

/-- The PWM is enabled, a command comes, and its writes arrive within the first period. -/
def commandInPeriod : List PathEvent :=
  [.server (.accept 7 true []), .server (.process 0 (.whole initMessage)),
    .server (.process 0 (.whole (serviceMessage rcciMsgRegService .drive someClient))), .clock none, .pwmEnable,
    .clock (some .main), .clock none, .server (.datagram someClient (msgDrvCtrlBytes ⟨1, 500, 0⟩)),
    .clock (some .driveReadThread), .clock none, .clock (some .driveReadThread), .clock none]

/-- The pulse under way stays that of the start. -/
theorem pulses_of_commands_inPeriod : ∃ t x y,
    exec (Logged.step 0x100 ⟨0, 0, 0, 0⟩) (.start ⟨false, false, 0, 80000, 50000, false⟩ .reset openEnv, .start)
        commandInPeriod = some t ∧
      t.2.clocks[6]? = some x ∧ t.2.clocks[2]? = some y ∧ t.2.off = 2 ∧
      (x.output .pwm0 = true ↔ 4 ≤ (y.input.active .pwm0).toNat) := by
  obtain ⟨t, ht, hoff, hk⟩ := @exists_exec _ _ (Logged.step 0x100 ⟨0, 0, 0, 0⟩)
    (fun t => t.2.off = 2 ∧ t.2.clocks.length = 7) _
    (.start ⟨false, false, 0, 80000, 50000, false⟩ .reset openEnv, .start) commandInPeriod (by decide)
  obtain ⟨x, hx⟩ : ∃ x, t.2.clocks[6]? = some x := ⟨_, List.getElem?_eq_getElem (by omega)⟩
  obtain ⟨-, hpulse⟩ := pulses_of_commands rfl .reset openEnv ht hx .pwm0
  rw [hoff] at hpulse
  obtain ⟨y, n, hy, hout, -⟩ := hpulse (by decide)
  exact ⟨t, x, y, ht, hx, hy, hoff, hout⟩

end DrivePath

end Daemon

end RcCarControl
