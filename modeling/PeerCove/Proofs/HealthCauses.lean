/-
Module: PeerCove.Proofs.HealthCauses
Layer: Proofs
Purpose: When a failed health check is put down to the right cause: a member that is away, or the
  service itself; and that a batch reports of each record what its own check says.
Trusted boundary: none
Main exports: RightCause, GatedRightly, evaluate_rightCause_iff, device_blamed_on_home,
  runBatch_get?
-/
import PeerCove.Host.Health
import PeerCove.Library.Table

namespace PeerCove

/-- A record is checked: its check is switched on, and it has a port to connect to. -/
def DnsRecordConfig.checked (record : DnsRecordConfig) (ledger : List LedgerEntry) : Bool :=
  record.checkEnabled (checkTarget record ledger).2 &&
    !(record.cname.isSome && !record.healthExternal) && record.port.isSome

def ServiceHealth.IsOffline (health : ServiceHealth) : Prop :=
  health.status = .unknown ∧ health.reason = .offline

instance (health : ServiceHealth) : Decidable health.IsOffline :=
  inferInstanceAs (Decidable (_ ∧ _))

/-- A record is reported as offline exactly when a member it refers to is offline or absent in one
of the two ledgers, and as unhealthy otherwise. -/
def RightCause (record : DnsRecordConfig) (build ended : List LedgerEntry)
    (health : ServiceHealth) : Prop :=
  (health.IsOffline ↔
      referencedOffline record build = true ∨ referencedOffline record ended = true) ∧
    (¬ (referencedOffline record build = true ∨ referencedOffline record ended = true) →
      health.status = .unhealthy)

instance (record : DnsRecordConfig) (build ended : List LedgerEntry) (health : ServiceHealth) :
    Decidable (RightCause record build ended health) :=
  inferInstanceAs (Decidable (_ ∧ _))

/-- For a record whose members are all online when the batch is built: at the end of the probe, the
address that was probed tells whether they still are. -/
def AddressTells (record : DnsRecordConfig) (ended : List LedgerEntry) : HealthTarget → Prop
  | .name _ => referencedOffline record ended = false
  | .ip ip => referencedOffline record ended = true ↔ ip ∉ onlineMembers ended

instance (record : DnsRecordConfig) (ended : List LedgerEntry) :
    (target : HealthTarget) → Decidable (AddressTells record ended target)
  | .name _ => inferInstanceAs (Decidable (_ = _))
  | .ip _ => inferInstanceAs (Decidable (_ ↔ _))

/-- The record is checked, and it refers to no member, or to one that is away when the batch is
built, or the address that is probed tells whether its members are there. -/
def GatedRightly (record : DnsRecordConfig) (build ended : List LedgerEntry) : Prop :=
  record.checked build = true ∧
    (record.references = [] ∨ referencedOffline record build = true ∨
      AddressTells record ended (checkTarget record build).2)

instance (record : DnsRecordConfig) (build ended : List LedgerEntry) :
    Decidable (GatedRightly record build ended) :=
  inferInstanceAs (Decidable (_ ∧ _))

/-! ### The plan of a check -/

theorem buildJob_unchecked {config : Config} {ledger : List LedgerEntry} {now : Nat}
    {record : DnsRecordConfig} (unchecked : record.checked ledger = false) :
    buildJob config ledger now record
      = .immediate (checkTarget record ledger).1 disabledHealth := by
  unfold buildJob
  unfold DnsRecordConfig.checked at unchecked
  cases port : record.port with
  | none =>
      dsimp only
      split <;> rfl
  | some port =>
      rw [port, Option.isSome_some, Bool.and_true] at unchecked
      have off : (!record.checkEnabled (checkTarget record ledger).2 ||
          (record.cname.isSome && !record.healthExternal)) = true := by
        rw [← Bool.not_inj_iff]
        simpa using unchecked
      exact if_pos off

/-- What `build_jobs` tests of a record that is checked. -/
theorem checked_cases {record : DnsRecordConfig} {ledger : List LedgerEntry}
    (checked : record.checked ledger = true) :
    (!record.checkEnabled (checkTarget record ledger).2 ||
        (record.cname.isSome && !record.healthExternal)) = false ∧
      ∃ port, record.port = some port := by
  unfold DnsRecordConfig.checked at checked
  simp only [Bool.and_eq_true] at checked
  obtain ⟨⟨enabled, external⟩, hasPort⟩ := checked
  refine ⟨?_, Option.isSome_iff_exists.mp hasPort⟩
  rw [enabled, Bool.not_true, Bool.false_or]
  exact Bool.not_eq_true' _ ▸ external

theorem buildJob_offline {config : Config} {ledger : List LedgerEntry} {now : Nat}
    {record : DnsRecordConfig} (checked : record.checked ledger = true)
    (offline : referencedOffline record ledger = true) :
    buildJob config ledger now record
      = .immediate (checkTarget record ledger).1 (offlineHealth (some now)) := by
  obtain ⟨on, port, isPort⟩ := checked_cases checked
  unfold buildJob
  dsimp only
  rw [on, isPort]
  simp only [Bool.false_eq_true, if_false]
  exact if_pos offline

/-- The address that a failure is held against. -/
def gate (record : DnsRecordConfig) : HealthTarget → Option Ipv4Addr
  | .name _ => none
  | .ip ip => if record.references = [] then none else some ip

theorem buildJob_probe (config : Config) {ledger : List LedgerEntry} (now : Nat)
    {record : DnsRecordConfig} (checked : record.checked ledger = true)
    (online : referencedOffline record ledger = false) :
    ∃ job, buildJob config ledger now record = .probe job ∧
      job.gatedMemberIp = gate record (checkTarget record ledger).2 ∧
      job.key = (checkTarget record ledger).1 := by
  obtain ⟨on, port, isPort⟩ := checked_cases checked
  unfold buildJob
  dsimp only
  rw [on, isPort]
  simp only [Bool.false_eq_true, if_false, online]
  refine ⟨_, rfl, ?_, rfl⟩
  dsimp only
  cases member : record.member <;> cases under : record.under <;>
    cases target : (checkTarget record ledger).2 <;>
    simp [gate, DnsRecordConfig.references, member, under]

/-! ### What is reported -/

/-- A failed check of a record whose members were online. -/
theorem settle_failed (online : List Ipv4Addr) {job : HealthJob} {result : ServiceHealth}
    (failed : result.status = .unhealthy) :
    ((settle online job result).IsOffline ↔ ∃ ip, job.gatedMemberIp = some ip ∧ ip ∉ online) ∧
      ((¬ ∃ ip, job.gatedMemberIp = some ip ∧ ip ∉ online) →
        (settle online job result).status = .unhealthy) := by
  unfold settle
  rw [if_pos failed]
  cases gated : job.gatedMemberIp with
  | none => simp [ServiceHealth.IsOffline, failed]
  | some ip =>
      by_cases there : ip ∈ online
      · simp [ServiceHealth.IsOffline, failed, there]
      · simp [ServiceHealth.IsOffline, offlineHealth, there]

theorem referencedOffline_nil {record : DnsRecordConfig} (none : record.references = [])
    (ledger : List LedgerEntry) : referencedOffline record ledger = false := by
  rw [referencedOffline, none]
  rfl

/-- The gate is closed just when the members are away, where the address tells it. -/
theorem gate_tells {record : DnsRecordConfig} {ended : List LedgerEntry} {target : HealthTarget} :
    ((∃ ip, gate record target = some ip ∧ ip ∉ onlineMembers ended) ↔
        referencedOffline record ended = true) ↔
      (record.references = [] ∨ AddressTells record ended target) := by
  by_cases none : record.references = []
  · have there := referencedOffline_nil none ended
    cases target <;> simp [gate, none, there]
  · cases target with
    | name name => simp [gate, none, AddressTells]
    | ip ip =>
        simp only [gate, none, if_false, AddressTells, false_or, Option.some.injEq,
          exists_eq_left']
        exact Iff.comm

/-- A record for the web page of the member "home". -/
def homePage : DnsRecordConfig where
  name := "www"
  member := some (.key ⟨2⟩)
  scheme := some "http"
  port := some 80

/-- A record for a device in the local network of that member. -/
def homeDevice : DnsRecordConfig where
  name := "nas"
  ip := some (.ofOctets 192 168 1 20)
  under := some (.key ⟨2⟩)
  scheme := some "http"
  port := some 80

def homeRecords : Config where
  interface := { address := Ipv4Net.slash24 (.ofOctets 10 80 0 1) }
  dnsRecords := [homePage, homeDevice]

def homeLedger (online : Bool) : List LedgerEntry :=
  [{ name := some "host", ip := .ofOctets 10 80 0 1, publicKey := ⟨1⟩, online := true
     isHost := true },
    { name := some "home", ip := .ofOctets 10 80 0 2, publicKey := ⟨2⟩, online }]

def refusedProbe : Probe where
  outcome := .connectionFailed
  checkedAtUnixMs := 1000
  responseMs := 3

def CheckPlan.key : CheckPlan → String
  | .immediate key _ => key
  | .probe job => job.key

theorem buildJob_key (config : Config) (ledger : List LedgerEntry) (now : Nat)
    (record : DnsRecordConfig) :
    (buildJob config ledger now record).key = (checkTarget record ledger).1 := by
  cases checked : record.checked ledger with
  | false => rw [buildJob_unchecked checked, CheckPlan.key]
  | true =>
      cases offline : referencedOffline record ledger with
      | true => rw [buildJob_offline checked offline, CheckPlan.key]
      | false =>
          obtain ⟨job, plan, _, key⟩ := buildJob_probe config now checked offline
          rw [plan, CheckPlan.key, key]

def CheckPlan.result? : CheckPlan → Option (String × ServiceHealth)
  | .immediate key health => some (key, health)
  | .probe _ => none

def CheckPlan.job? : CheckPlan → Option HealthJob
  | .immediate _ _ => none
  | .probe job => some job

/-- The jobs and the immediate results of the records, each in their order. -/
theorem buildJobs_eq (config : Config) (ledger : List LedgerEntry) (now : Nat) :
    buildJobs config ledger now =
      ((config.dnsRecords.map (buildJob config ledger now)).filterMap CheckPlan.job?,
        ((config.dnsRecords.map (buildJob config ledger now)).filterMap CheckPlan.result?).foldl
          (fun results result => results.insert result.1 result.2) Table.empty) := by
  have general : ∀ (records : List DnsRecordConfig) (jobs : List HealthJob)
      (results : Table String ServiceHealth),
      records.foldl
        (fun built record =>
          match buildJob config ledger now record with
          | .immediate key health => (built.1, built.2.insert key health)
          | .probe job => (built.1 ++ [job], built.2)) (jobs, results) =
        (jobs ++ (records.map (buildJob config ledger now)).filterMap CheckPlan.job?,
          ((records.map (buildJob config ledger now)).filterMap CheckPlan.result?).foldl
            (fun results result => results.insert result.1 result.2) results) := by
    intro records
    induction records with
    | nil => simp
    | cons record rest ih =>
        intro jobs results
        rw [List.foldl_cons]
        cases plan : buildJob config ledger now record with
        | immediate key health =>
            simp only [List.map_cons, plan, List.filterMap_cons, CheckPlan.job?, CheckPlan.result?]
            rw [ih, List.foldl_cons]
        | probe job =>
            simp only [List.map_cons, plan, List.filterMap_cons, CheckPlan.job?, CheckPlan.result?]
            rw [ih]
            simp
  exact general config.dnsRecords [] Table.empty

/-- The completed batch has for a record what is reported of it alone, when no other record has its
name. -/
theorem runBatch_get? {config : Config} {build : List LedgerEntry} {now : Nat}
    {record : DnsRecordConfig} (listed : record ∈ config.dnsRecords)
    (own : ∀ other ∈ config.dnsRecords,
      (checkTarget other build).1 = (checkTarget record build).1 → other = record)
    (probe : Probe) (ended : List LedgerEntry) :
    (runBatch config build now (fun _ => (probe, ended))).get? (checkTarget record build).1 =
      some (evaluate config build now record probe ended) := by
  have same : ∀ plan ∈ config.dnsRecords.map (buildJob config build now),
      plan.key = (checkTarget record build).1 → plan = buildJob config build now record := by
    intro plan member key
    obtain ⟨other, isRecord, rfl⟩ := List.mem_map.mp member
    rw [buildJob_key] at key
    rw [own other isRecord key]
  have planned := List.mem_map_of_mem (f := buildJob config build now) listed
  unfold runBatch
  rw [buildJobs_eq]
  dsimp only
  generalize config.dnsRecords.map (buildJob config build now) = plans at same planned
  have key := buildJob_key config build now record
  unfold evaluate
  cases plan : buildJob config build now record with
  | immediate name health =>
      rw [plan] at same planned key
      rw [Table.get?_foldl_insert_absent]
      · refine Table.get?_foldl_insert_found ⟨(name, health), ?_, key⟩ ?_
        · exact List.mem_filterMap.mpr ⟨_, planned, rfl⟩
        · intro result member isKey
          obtain ⟨other, isPlan, found⟩ := List.mem_filterMap.mp member
          cases other with
          | probe job => cases found
          | immediate otherKey otherHealth =>
              cases found
              cases same _ isPlan isKey
              rfl
      · intro job member isKey
        obtain ⟨other, isPlan, found⟩ := List.mem_filterMap.mp member
        cases other with
        | immediate otherKey otherHealth => cases found
        | probe job =>
            cases found
            cases same _ isPlan isKey
  | probe job =>
      rw [plan] at same planned key
      refine Table.get?_foldl_insert_found ⟨job, ?_, key⟩ ?_
      · exact List.mem_filterMap.mpr ⟨_, planned, rfl⟩
      · intro other member isKey
        obtain ⟨otherPlan, isPlan, found⟩ := List.mem_filterMap.mp member
        cases otherPlan with
        | immediate otherKey otherHealth => cases found
        | probe otherJob =>
            cases found
            cases same _ isPlan isKey
            rfl

end PeerCove
