/-
Module: PeerCove.Host.Health
Layer: Host
Purpose: Health checks of the services behind DNS records: which records are probed, what a probe
  says, and what is reported when a probe fails.
Trusted boundary: the outcome of a probe and the times are inputs; workers take no part but in the
  order in which results arrive
Main exports: HealthJob, buildJob, buildJobs, checkResult, settle, HealthMonitor.schedule,
  evaluate, runBatch
-/
import PeerCove.Core.DnsZone
import PeerCove.Library.Table

namespace PeerCove

def CHECK_INTERVAL : Nat := 60 * 1000000000

inductive HealthTarget where
  | ip (ip : Ipv4Addr)
  | name (name : String)
deriving DecidableEq

structure HealthJob where
  key : String
  fqdn : String
  target : HealthTarget
  port : UInt16
  kind : HealthCheckKind
  path : String
  expectedStatus : Option UInt16
  gatedMemberIp : Option Ipv4Addr
deriving DecidableEq

/-- What comes of `run_check` within its time limit. -/
inductive ProbeOutcome where
  | timeout
  | resolutionFailed
  | connectionFailed
  | answered (httpStatus : Option UInt16)
deriving DecidableEq

structure Probe where
  outcome : ProbeOutcome
  checkedAtUnixMs : Nat
  responseMs : Nat
deriving DecidableEq

/-! ### Which records are probed -/

/-- `is_private` or `is_loopback`. -/
def isInternalIp (ip : Ipv4Addr) : Bool :=
  ip.octet 0 = 10 || (ip.octet 0 = 172 && 16 ≤ ip.octet 1 && ip.octet 1 ≤ 31) ||
    (ip.octet 0 = 192 && ip.octet 1 = 168) || ip.octet 0 = 127

def recordName (record : DnsRecordConfig) (ledger : List LedgerEntry) : String :=
  match (resolveCnames [record] ledger).head? with
  | some resolved => resolved.name
  | none => record.name

/-- The key of the result of a record, and what its check connects to. -/
def checkTarget (record : DnsRecordConfig) (ledger : List LedgerEntry) : String × HealthTarget :=
  match record.cname with
  | some cname => (recordName record ledger, .name cname)
  | none =>
      match (resolveRecords [record] ledger).head? with
      | some resolved => (resolved.name, .ip resolved.ip)
      | none => (record.name, .ip 0)

def DnsRecordConfig.references (record : DnsRecordConfig) : List MemberRef :=
  record.member.toList ++ record.under.toList

def referencedOffline (record : DnsRecordConfig) (ledger : List LedgerEntry) : Bool :=
  record.references.any (fun reference =>
    match ledger.find? (fun entry => reference.names entry) with
    | none => true
    | some entry => !entry.online)

def disabledHealth : ServiceHealth where
  status := .disabled
  reason := .disabled

def offlineHealth (checkedAtUnixMs : Option Nat) : ServiceHealth where
  status := .unknown
  reason := .offline
  checkedAtUnixMs := checkedAtUnixMs

inductive CheckPlan where
  | immediate (key : String) (health : ServiceHealth)
  | probe (job : HealthJob)

def DnsRecordConfig.checkEnabled (record : DnsRecordConfig) (target : HealthTarget) : Bool :=
  let internalTarget :=
    match target with
    | .ip ip => isInternalIp ip
    | .name _ => false
  let enabledByDefault :=
    record.cname.isNone && record.scheme.isSome && record.port.isSome && internalTarget
  record.healthCheck.getD enabledByDefault

/-- The loop body of `build_jobs`. -/
def buildJob (config : Config) (ledger : List LedgerEntry) (now : Nat) (record : DnsRecordConfig) :
    CheckPlan :=
  let (key, target) := checkTarget record ledger
  if !record.checkEnabled target || (record.cname.isSome && !record.healthExternal) then
    .immediate key disabledHealth
  else
    match record.port with
    | none => .immediate key disabledHealth
    | some port =>
        if referencedOffline record ledger then
          .immediate key (offlineHealth (some now))
        else
          .probe
            { key, target, port
              fqdn := fqdn config.networkName key
              kind := record.healthKind.getD .tcp
              path := record.healthPath.getD "/"
              expectedStatus := record.healthExpectStatus
              gatedMemberIp :=
                if record.member.isSome || record.under.isSome then
                  match target with
                  | .ip ip => some ip
                  | .name _ => none
                else none }

def buildJobs (config : Config) (ledger : List LedgerEntry) (now : Nat) :
    List HealthJob × Table String ServiceHealth :=
  config.dnsRecords.foldl
    (fun built record =>
      match buildJob config ledger now record with
      | .immediate key health => (built.1, built.2.insert key health)
      | .probe job => (built.1 ++ [job], built.2))
    ([], Table.empty)

/-! ### What is reported -/

/-- `check_with_timeout`. -/
def checkResult (job : HealthJob) (probe : Probe) : ServiceHealth :=
  let health status reason httpStatus : ServiceHealth :=
    { status, reason, checkedAtUnixMs := some probe.checkedAtUnixMs
      responseMs := some probe.responseMs, httpStatus }
  match probe.outcome with
  | .timeout => health .unhealthy .timeout none
  | .resolutionFailed => health .unknown .nameResolutionFailed none
  | .connectionFailed => health .unhealthy .connectionFailed none
  | .answered httpStatus =>
      let healthy : Bool :=
        match job.expectedStatus, httpStatus with
        | some expected, some actual => expected = actual
        | none, some actual => 200 ≤ actual.toNat && actual.toNat < 400
        | _, none => true
      if healthy then health .healthy .notChecked httpStatus
      else health .unhealthy .unexpectedStatus httpStatus

def onlineMembers (ledger : List LedgerEntry) : List Ipv4Addr :=
  (ledger.filter (fun entry => entry.online)).map (fun entry => entry.ip)

/-- What a worker makes of a result: a member that went away meanwhile is not a failed service. -/
def settle (online : List Ipv4Addr) (job : HealthJob) (result : ServiceHealth) : ServiceHealth :=
  if result.status = .unhealthy then
    match job.gatedMemberIp with
    | some ip => if ip ∉ online then offlineHealth result.checkedAtUnixMs else result
    | none => result
  else result

/-- What is reported of a record, with the ledgers of the times when the batch is built and when the
probe has ended. -/
def evaluate (config : Config) (build : List LedgerEntry) (now : Nat) (record : DnsRecordConfig)
    (probe : Probe) (ended : List LedgerEntry) : ServiceHealth :=
  match buildJob config build now record with
  | .immediate _ health => health
  | .probe job => settle (onlineMembers ended) job (checkResult job probe)

/-- A batch: each job with its probe and the ledger of the time when that has ended. -/
def runBatch (config : Config) (build : List LedgerEntry) (now : Nat)
    (probes : HealthJob → Probe × List LedgerEntry) : Table String ServiceHealth :=
  let (jobs, immediate) := buildJobs config build now
  jobs.foldl
    (fun results job =>
      results.insert job.key
        (settle (onlineMembers (probes job).2) job (checkResult job (probes job).1)))
    immediate

structure HealthMonitor where
  results : Table String ServiceHealth := Table.empty
  lastStarted : Option Nat := none
  running : Bool := false
  force : Bool := false
  onlineMembers : List Ipv4Addr := []

namespace HealthMonitor

def requestNow (monitor : HealthMonitor) : HealthMonitor :=
  { monitor with force := true }

/-- What `schedule` does to the monitor, and whether it starts a batch. -/
def schedule (monitor : HealthMonitor) (ledger : List LedgerEntry) (instant : Nat) :
    HealthMonitor × Bool :=
  let monitor := { monitor with onlineMembers := PeerCove.onlineMembers ledger }
  let due :=
    match monitor.lastStarted with
    | none => true
    | some last => CHECK_INTERVAL ≤ instant - last
  if monitor.running || (!monitor.force && !due) then (monitor, false)
  else ({ monitor with force := false, running := true, lastStarted := some instant }, true)

def finish (monitor : HealthMonitor) (completed : Table String ServiceHealth) : HealthMonitor :=
  { monitor with results := completed, running := false }

def stop (monitor : HealthMonitor) : HealthMonitor :=
  { monitor with running := false }

/-- The health that goes out with the record of a name. -/
def healthOf (monitor : HealthMonitor) (name : String) : ServiceHealth :=
  (monitor.results.get? name).getD { status := .unknown, reason := .notChecked }

def enrich (monitor : HealthMonitor) (records : List DnsRecord) (cnames : List CnameRecord) :
    List DnsRecord × List CnameRecord :=
  (records.map (fun record => { record with health := some (monitor.healthOf record.name) }),
    cnames.map (fun record => { record with health := some (monitor.healthOf record.name) }))

end HealthMonitor

end PeerCove
