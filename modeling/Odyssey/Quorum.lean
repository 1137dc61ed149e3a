/-
  THE QUORUM INFO: which machines a broadcast goes to.

  `quorum_info_t` stores the membership four times: the ids of the active machines, the ids of
  the missing ones, a bit for every remote machine, and the first and last active remote id.  Two
  functions rebuild it:

  * `updateQInfo`, on a timeout, from the credits of the broadcast that timed out;
  * `reviveMachine`, when a missing machine has given all credits back, from the bit vector
    ("using the credits may not be reliable here").

  After either, `updateBcastWrLinks` links the work requests of every broadcast QP anew, so that a
  broadcast visits the active machines only.  `checkBcastCredits` decides when to do which, and
  tells the caller how many broadcasts it may send.

  The list being rebuilt is an array with a `uint8_t` fill count.  A credit array is a function of
  the machine id; a pointer to one (`credit_ptrs`), and a pointer to an array of work requests
  (`send_wrs_ptrs`), is the id of the QP that owns it.
-/
import Odyssey.WorkRequest

namespace Odyssey

open Lib

/-- `quorum_info_t`. -/
structure QuorumInfo where
  missingNum : Nat
  missingIds : Nat → Nat
  activeNum : Nat
  activeIds : Nat → Nat
  sendVector : Nat → Bool
  /-- these are not machine ids, they range from 0 to `remMachNum - 1` -/
  firstActiveRmId : Nat
  lastActiveRmId : Nat
  /-- the number of send_wrs we are reconfiguring -/
  numOfSendWrs : Nat
  sendWrsPtrs : Nat → Nat
  /-- the revive condition: which credits must reach what target -/
  numOfCreditTargets : Nat
  creditPtrs : Nat → Nat
  targets : Nat → UInt16

namespace QuorumInfo

variable (q : QuorumInfo)

/-- The active machines, as the array lists them. -/
def active : List Nat := filled q.activeIds q.activeNum

/-- The missing machines, as the array lists them. -/
def missing : List Nat := filled q.missingIds q.missingNum

/-- The QPs whose work requests are reconfigured: the broadcast QPs sharing the `q_info`. -/
def sharing : List Nat := filled q.sendWrsPtrs q.numOfSendWrs

def pushActive (m : Nat) : QuorumInfo :=
  { q with
    activeIds := Function.update q.activeIds q.activeNum m
    activeNum := u8 (q.activeNum + 1) }

def pushMissing (m : Nat) : QuorumInfo :=
  { q with
    missingIds := Function.update q.missingIds q.missingNum m
    missingNum := u8 (q.missingNum + 1) }

def setSendVector (rm : Nat) (b : Bool) : QuorumInfo :=
  { q with sendVector := Function.update q.sendVector rm b }

/-- Both rebuilds start from empty lists. -/
def clear : QuorumInfo := { q with missingNum := 0, activeNum := 0 }

end QuorumInfo

variable (cl : Cluster)

/-! ## Set-up -/

/-- `ctx_set_up_q_info`, given the broadcast QPs in order, each with its `max_credits`.  The
    number of QPs is counted in a `uint8_t`, and the arrays are allocated by that count. -/
def ctxSetUpQInfo (bcasts : List (Nat × UInt16)) : Outcome QuorumInfo := do
  let q : QuorumInfo := {
    missingNum := 0, missingIds := fun _ => 0
    activeNum := u8 cl.remMachNum, activeIds := fun _ => 0
    sendVector := fun _ => false
    firstActiveRmId := 0, lastActiveRmId := u8 (cl.remMachNum - 1)
    numOfSendWrs := u8 bcasts.length, sendWrsPtrs := fun _ => 0
    numOfCreditTargets := u8 bcasts.length, creditPtrs := fun _ => 0, targets := fun _ => 0 }
  let q ← forPure 8 cl.remMachNum (fun q i =>
    { q.setSendVector i true with
      activeIds := Function.update q.activeIds i
        (if i < cl.machineId then i else u8 (i + 1)) }) q
  if q.numOfSendWrs = 0 then return q
  else if q.numOfSendWrs < bcasts.length then .error .undefined
  else return { q with
    sendWrsPtrs := fun b => (bcasts.getD b (0, 0)).1
    creditPtrs := fun b => (bcasts.getD b (0, 0)).1
    targets := fun b => (bcasts.getD b (0, 0)).2 }

/-! ## Reconfiguration -/

/-- `update_q_info`. -/
def updateQInfo (q : QuorumInfo) (credits : Nat → UInt16) (minCredits : UInt16) :
    Outcome QuorumInfo := do
  let q ← forPure 8 cl.machineNum (fun q i =>
    if i = cl.machineId then q
    else if credits i < minCredits then
      (q.pushMissing i).setSendVector (cl.midToRmid i) false
    else (q.pushActive i).setSendVector (cl.midToRmid i) true) q.clear
  let q := { q with firstActiveRmId := cl.midToRmid (q.activeIds 0) }
  return if 0 < q.activeNum then
    { q with lastActiveRmId := cl.midToRmid (q.activeIds (q.activeNum - 1)) } else q

/-- `all_q_info_targets_are_reached`. -/
def allQInfoTargetsAreReached (creditsOf : Nat → Nat → UInt16) (q : QuorumInfo)
    (missI : Nat) : Bool :=
  (List.range q.numOfCreditTargets).all fun tarI =>
    creditsOf (q.creditPtrs tarI) (q.missingIds missI) == q.targets tarI

/-- `revive_machine`.  With no active machine it reads `active_ids[-1]`. -/
def reviveMachine (q : QuorumInfo) (revivedMachId : Nat) : Outcome QuorumInfo := do
  let q := (q.setSendVector (cl.midToRmid revivedMachId) true).clear
  let q ← forPure 8 cl.remMachNum (fun q i =>
    if q.sendVector i then q.pushActive (cl.rmidToMid i)
    else q.pushMissing (cl.rmidToMid i)) q
  if q.activeNum = 0 then .error .undefined
  else return { q with
    firstActiveRmId := cl.midToRmid (q.activeIds 0)
    lastActiveRmId := cl.midToRmid (q.activeIds (q.activeNum - 1)) }

/-- The state of `update_bcast_wr_links`. -/
structure Linking where
  prevI : Nat
  availMach : Nat
  queue : SendQueue

/-- `update_bcast_wr_links`: the links between the send work requests of a broadcast QP.  It is
    called where `MESSAGES_IN_BCAST` is `REM_MACH_NUM`. -/
def updateBcastWrLinks (q : QuorumInfo) (s : SendQueue) : Outcome SendQueue := do
  let link ← forPure 8 cl.remMachNum (fun link i =>
    let s := link.queue.setNext i none
    if q.sendVector i then
      ⟨i, u8 (link.availMach + 1),
        if 0 < link.availMach then
          (List.range maxBcastBatch).foldl (fun s j =>
            s.setNext (cl.remMachNum * j + link.prevI) (some (cl.remMachNum * j + i))) s
        else s⟩
    else { link with queue := s }) (⟨0, 0, s⟩ : Linking)
  return link.queue

/-- What a reconfiguration changes: the `q_info`, the send work requests of the QPs, and the
    timeout counter of the broadcast that triggers it. -/
structure Reconf where
  qInfo : QuorumInfo
  queue : Nat → SendQueue
  timeOutCnt : Nat

/-- Link the work requests of every QP in `send_wrs_ptrs`. -/
def Reconf.relink (r : Reconf) : Outcome Reconf :=
  (List.range r.qInfo.numOfSendWrs).foldlM (fun r wrI => do
    let qp := r.qInfo.sendWrsPtrs wrI
    let s ← updateBcastWrLinks cl r.qInfo (r.queue qp)
    return { r with queue := Function.update r.queue qp s }) r

/-- One round of the loop over the missing machines in `check_bcast_credits`.  A revival rewrites
    the list the loop runs over, and the loop goes on at the next position.  Once its test fails
    nothing changes any more, which is the end of the loop. -/
def Reconf.reviveRound (creditsOf : Nat → Nat → UInt16) (r : Reconf) (i : Nat) :
    Outcome Reconf :=
  if i < r.qInfo.missingNum && allQInfoTargetsAreReached creditsOf r.qInfo i then do
    let q ← reviveMachine cl r.qInfo (r.qInfo.missingIds i)
    ({ r with qInfo := q } : Reconf).relink cl
  else return r

/-- `check_bcast_credits`, with `credits` for the broadcast at hand and `creditsOf` for what
    `credit_ptrs` point to.  The answer `some n` is `true` with `available_credits = n`. -/
def checkBcastCredits (creditsOf : Nat → Nat → UInt16) (credits : Nat → UInt16)
    (minCredits : UInt16) (r : Reconf) : Outcome (Reconf × Option UInt16) := do
  -- the fast path, when there are not enough credits
  if r.qInfo.active.any (credits · < minCredits) then
    let r := { r with timeOutCnt := u32 (r.timeOutCnt + 1) }
    if r.timeOutCnt = creditTimeout then
      let q ← updateQInfo cl r.qInfo credits minCredits
      let r ← ({ r with qInfo := q } : Reconf).relink cl
      return ({ r with timeOutCnt := 0 }, none)
    else return (r, none)
  else
    let r := { r with timeOutCnt := 0 }
    -- `missing_num` is a `uint8_t`
    let r ← (List.range (2 ^ 8)).foldlM (Reconf.reviveRound cl creditsOf) r
    if r.qInfo.activeNum < cl.remoteQuorum then return (r, none)
    else
      let availCred := r.qInfo.active.foldl
        (fun avail m => if credits m < avail then credits m else avail) k64_
      return (r, some availCred)

/-- `decrease_credits`. -/
def decreaseCredits (credits : Nat → UInt16) (q : QuorumInfo) (mesSent : UInt16) :
    Nat → UInt16 :=
  q.active.foldl (fun credits m => Function.update credits m (credits m - mesSent)) credits

end Odyssey
