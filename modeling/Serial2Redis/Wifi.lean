import Mathlib.Data.List.MinMax
import Serial2Redis.CborFlows
import Serial2Redis.PublishAlive
import Serial2Redis.Library.GuardedRun

/-!
# The WiFi station of espUdp

The event handlers of `Wifi.cpp` and the driver they give their orders to. The network to
join is looked for in a loop over the scan; the driver keeps the name it was given last.
-/

namespace Serial2Redis

open GuardedRun ListSearch

/-- What `scanDoneHandler` reads of a `wifi_ap_record_t`. -/
structure ApRecord where
  ssid : Bytes
  rssi : BitVec 8

namespace ApRecord

def name (record : ApRecord) : CppString := cString record.ssid

def strength (record : ApRecord) : Int := record.rssi.toInt

end ApRecord

inductive WifiEvent where
  | scanDone (apRecords : List ApRecord)
  | staStop
  | staStart
  | staConnected
  | staDisconnected
  | gotIp (address : CppString)
  | lostIp
  | unknown

inductive WifiCall where
  | scanStart
  | setConfig (ssid password : CppString)
  | connect

/-- `wifiPrefix` is the flow `prefix`, `wifiPass` the macro `WIFI_PASS`. -/
structure Wifi where
  connected : Bool
  rssi : Int
  ipAddress : CppString
  ssid : CppString
  wifiPrefix : CppString
  wifiPass : CppString

namespace Wifi

/-- One turn of the loop, on `strongestAP` and `rssi`. -/
def scanTurn (wifiPrefix : CppString) (found : Int × Int) (entry : ApRecord × Nat) : Int × Int :=
  if entry.1.strength > found.2 ∧ CppString.find entry.1.name wifiPrefix = some 0 then
    (entry.2, entry.1.strength)
  else found

def scanLoop (wifiPrefix : CppString) (apRecords : List ApRecord) : Int × Int :=
  apRecords.zipIdx.foldl (scanTurn wifiPrefix) (-1, -200)

def scanDoneHandler (wifi : Wifi) (apRecords : List ApRecord) : Bool × Wifi :=
  if apRecords.length = 0 then (false, wifi)
  else
    let (strongestAP, rssi) := scanLoop wifi.wifiPrefix apRecords
    if strongestAP = -1 then (false, { wifi with rssi := rssi })
    else
      let record := apRecords.getD strongestAP.toNat ⟨[], 0⟩
      (true, { wifi with rssi := rssi, ssid := record.name })

/-- The `ssid` field of the station has 32 bytes, its `password` field 64; both keep their
last byte zero. -/
def connectToAP (wifi : Wifi) (ssid : CppString) : List WifiCall :=
  [.setConfig (ssid.take 31) (wifi.wifiPass.take 63), .connect]

/-- `wifi_event_handler` and `ip_event_handler`. -/
def eventHandler (wifi : Wifi) : WifiEvent → Wifi × List WifiCall
  | .scanDone apRecords =>
      let (found, scanned) := wifi.scanDoneHandler apRecords
      (scanned, if found then scanned.connectToAP scanned.ssid else [.scanStart])
  | .staStart => (wifi, [.scanStart])
  | .staDisconnected => (wifi, [.connect])
  | .gotIp address => ({ wifi with ipAddress := address, connected := true }, [])
  | .lostIp => ({ wifi with connected := false }, [])
  | .staStop | .staConnected | .unknown => (wifi, [])

end Wifi

/-- What the driver does that is asked to join: `none` when no name was set before. -/
inductive DriverAction where
  | scan
  | join (ssid : Option CppString)

/-- The station together with the name that its driver holds. -/
structure WifiStation where
  wifi : Wifi
  config : Option CppString

namespace WifiStation

def drive (config : Option CppString) : List WifiCall → Option CppString × List DriverAction
  | [] => (config, [])
  | .scanStart :: rest => ((drive config rest).1, .scan :: (drive config rest).2)
  | .setConfig ssid _ :: rest => drive (some ssid) rest
  | .connect :: rest => ((drive config rest).1, .join config :: (drive config rest).2)

def step (station : WifiStation) (event : WifiEvent) : WifiStation :=
  ⟨(station.wifi.eventHandler event).1,
    (drive station.config (station.wifi.eventHandler event).2).1⟩

def acted (station : WifiStation) (event : WifiEvent) : List DriverAction :=
  (drive station.config (station.wifi.eventHandler event).2).2

end WifiStation

/-- What the station is for: the network chosen last, and the strongest one that fits the
prefix as the next. -/
structure Chooser where
  wifiPrefix : CppString
  chosen : Option ApRecord

namespace Chooser

local instance : Preorder Int := Int.instLinearOrder.toPreorder

/-- The first of the strongest. -/
def pick (wifiPrefix : CppString) (apRecords : List ApRecord) : Option ApRecord :=
  (apRecords.filter fun record => wifiPrefix <+: record.name).argmax ApRecord.strength

def step (chooser : Chooser) : WifiEvent → Chooser
  | .scanDone apRecords =>
      { chooser with chosen := (pick chooser.wifiPrefix apRecords).or chooser.chosen }
  | _ => chooser

def joins (chosen : Option ApRecord) : DriverAction :=
  .join (chosen.map fun record => record.name.take 31)

def acted (chooser : Chooser) : WifiEvent → List DriverAction
  | .scanDone apRecords =>
      match pick chooser.wifiPrefix apRecords with
      | some record => [joins (some record)]
      | none => [.scan]
  | .staStart => [.scan]
  | .staDisconnected => [joins chooser.chosen]
  | _ => []

end Chooser

namespace Wifi

open Chooser

theorem scan_loop_append (wifiPrefix : CppString) (apRecords : List ApRecord) (last : ApRecord) :
    scanLoop wifiPrefix (apRecords ++ [last]) =
      scanTurn wifiPrefix (scanLoop wifiPrefix apRecords) (last, apRecords.length) := by
  rw [scanLoop, List.zipIdx_append, List.foldl_append]
  simp [scanLoop]

/-- Any strength is above the one that the loop starts with. -/
theorem strength_above (record : ApRecord) : -200 < record.strength := by
  have bound := BitVec.le_toInt record.rssi
  unfold ApRecord.strength
  omega

theorem pick_append_fits (wifiPrefix : CppString) (apRecords : List ApRecord) (last : ApRecord)
    (fits : wifiPrefix <+: last.name) :
    pick wifiPrefix (apRecords ++ [last]) =
      Option.casesOn (pick wifiPrefix apRecords) (some last) fun best =>
        if best.strength < last.strength then some last else some best := by
  rw [pick, List.filter_append, List.filter_singleton, decide_eq_true fits]
  exact List.argmax_concat _ _ _

theorem pick_append_other (wifiPrefix : CppString) (apRecords : List ApRecord) (last : ApRecord)
    (other : ¬wifiPrefix <+: last.name) :
    pick wifiPrefix (apRecords ++ [last]) = pick wifiPrefix apRecords := by
  rw [pick, List.filter_append, List.filter_singleton, decide_eq_false other]
  simp only [cond_false, List.append_nil]
  rfl

/-- What the loop is left with: the pick and where it stands. -/
theorem scan_loop_pick (wifiPrefix : CppString) (apRecords : List ApRecord) :
    match pick wifiPrefix apRecords with
    | none => scanLoop wifiPrefix apRecords = (-1, -200)
    | some record => ∃ index : Nat,
        scanLoop wifiPrefix apRecords = ((index : Int), record.strength) ∧
          apRecords[index]? = some record := by
  induction apRecords using List.reverseRecOn with
  | nil => rfl
  | append_singleton apRecords last induction =>
      have begins : CppString.find last.name wifiPrefix = some 0 ↔ wifiPrefix <+: last.name :=
        first_occurrence_zero_iff wifiPrefix last.name
      have grows : ∀ (index : Nat) record, apRecords[index]? = some record →
          (apRecords ++ [last])[index]? = some record := by
        intro index record stands
        rwa [List.getElem?_append_left (List.getElem?_eq_some_iff.mp stands).1]
      have placed : (apRecords ++ [last])[apRecords.length]? = some last :=
        List.getElem?_concat_length
      rw [scan_loop_append, scanTurn]
      by_cases fits : wifiPrefix <+: last.name
      · rw [pick_append_fits wifiPrefix apRecords last fits]
        cases best : pick wifiPrefix apRecords with
        | none =>
            rw [best] at induction
            simp only at induction
            rw [induction, if_pos ⟨strength_above last, begins.mpr fits⟩]
            exact ⟨apRecords.length, rfl, placed⟩
        | some record =>
            rw [best] at induction
            rcases induction with ⟨index, found, stands⟩
            rw [found]
            by_cases stronger : record.strength < last.strength
            · rw [if_pos ⟨stronger, begins.mpr fits⟩]
              simp only [if_pos stronger]
              exact ⟨apRecords.length, rfl, placed⟩
            · rw [if_neg fun both => stronger both.1]
              simp only [if_neg stronger]
              exact ⟨index, rfl, grows index record stands⟩
      · rw [pick_append_other wifiPrefix apRecords last fits,
          if_neg fun both => fits (begins.mp both.2)]
        cases best : pick wifiPrefix apRecords with
        | none =>
            rw [best] at induction
            exact induction
        | some record =>
            rw [best] at induction
            rcases induction with ⟨index, found, stands⟩
            exact ⟨index, found, grows index record stands⟩

/-- The handler finds what is to be picked. -/
theorem scan_done_pick (wifi : Wifi) (apRecords : List ApRecord) :
    let (found, scanned) := wifi.scanDoneHandler apRecords
    scanned.wifiPrefix = wifi.wifiPrefix ∧
      match pick wifi.wifiPrefix apRecords with
      | none => found = false ∧ scanned.ssid = wifi.ssid
      | some record => found = true ∧ scanned.ssid = record.name := by
  unfold scanDoneHandler
  by_cases empty : apRecords.length = 0
  · rw [if_pos empty, List.eq_nil_of_length_eq_zero empty]
    exact ⟨rfl, rfl, rfl⟩
  · rw [if_neg empty]
    have loop := scan_loop_pick wifi.wifiPrefix apRecords
    cases picked : pick wifi.wifiPrefix apRecords with
    | none =>
        rw [picked] at loop
        simp only at loop
        simp [loop]
    | some record =>
        rw [picked] at loop
        rcases loop with ⟨index, found, stands⟩
        have real : ¬(index : Int) = -1 := by omega
        simp [found, real, stands]

end Wifi

namespace WifiStation

open Chooser

/-- The driver holds the name of the network chosen last, as far as it fits. -/
structure Follows (ssid : CppString) (station : WifiStation) (chooser : Chooser) : Prop where
  same : station.wifi.wifiPrefix = chooser.wifiPrefix
  config : station.config = chooser.chosen.map fun record => record.name.take 31
  shown : station.wifi.ssid = (chooser.chosen.map ApRecord.name).getD ssid

theorem step_follows (ssid : CppString) (station : WifiStation) (chooser : Chooser)
    (event : WifiEvent) (follows : station.Follows ssid chooser) :
    (station.step event).Follows ssid (chooser.step event) ∧
      station.acted event = chooser.acted event := by
  rcases follows with ⟨same, config, shown⟩
  cases event with
  | scanDone apRecords =>
      have handled := Wifi.scan_done_pick station.wifi apRecords
      rw [same] at handled
      simp only [step, acted, Wifi.eventHandler, Chooser.step, Chooser.acted]
      generalize station.wifi.scanDoneHandler apRecords = result at handled ⊢
      rcases result with ⟨found, scanned⟩
      rcases handled with ⟨kept, outcome⟩
      cases picked : pick chooser.wifiPrefix apRecords with
      | none =>
          rw [picked] at outcome
          rcases outcome with ⟨rfl, named⟩
          exact ⟨⟨kept, config, named.trans shown⟩, rfl⟩
      | some record =>
          rw [picked] at outcome
          rcases outcome with ⟨rfl, named⟩
          refine ⟨⟨kept, ?_, named⟩, ?_⟩ <;>
            simp [Wifi.connectToAP, drive, joins, named]
  | staDisconnected =>
      refine ⟨⟨same, config, shown⟩, ?_⟩
      simp [acted, Wifi.eventHandler, drive, Chooser.acted, joins, config]
  | _ => exact ⟨⟨same, config, shown⟩, rfl⟩

/-- In every run the station does what choosing the first of the strongest networks that fit
the prefix says, rejoins the one chosen last, and scans again when there is none; the name
that the driver is left with is the whole name exactly when it has at most 31 bytes. -/
theorem wifi_follows_chooser (wifi : Wifi) (events : List WifiEvent) :
    let final := run step ⟨wifi, none⟩ events
    let chooser := run Chooser.step ⟨wifi.wifiPrefix, none⟩ events
    collected step acted ⟨wifi, none⟩ events =
        collected Chooser.step Chooser.acted ⟨wifi.wifiPrefix, none⟩ events ∧
      ∀ record ∈ chooser.chosen, final.wifi.ssid = record.name ∧
        (final.config = some record.name ↔ record.name.length ≤ 31) := by
  intro final chooser
  have begins : Follows wifi.ssid ⟨wifi, none⟩ ⟨wifi.wifiPrefix, none⟩ := ⟨rfl, rfl, rfl⟩
  obtain ⟨follows, same⟩ := collected_simulated step acted Chooser.step Chooser.acted
    (Follows wifi.ssid) (step_follows wifi.ssid) _ _ events begins
  refine ⟨same, ?_⟩
  intro record chosen
  have config := follows.config
  have shown := follows.shown
  have picked : (run Chooser.step ⟨wifi.wifiPrefix, none⟩ events).chosen = some record := chosen
  rw [picked] at config shown
  refine ⟨shown, ?_⟩
  rw [show final.config = _ from config, Option.map_some, Option.some.injEq, List.take_eq_self_iff]

end WifiStation

end Serial2Redis
