/-
Module: PeerCove.Ops.Acl
Layer: Operations
Purpose: Operations on the section `[acl]` of `host.toml`: the policy as the screens edit it, the
  permission groups, and the denied pairs of earlier versions.
Trusted boundary: the file holds the text of its `Config`, so editing a table edits the record
Main exports: readPolicy, writePolicy, permGroupCreate, permGroupDelete, importPermGroups, writeDeny
-/
import PeerCove.Ops.Peers

namespace PeerCove

open Fallible

/-- The policy as it is read and written whole. -/
structure PolicySettings where
  default : AclAction
  groups : List AclGroup
  rules : List AclRule
deriving DecidableEq

/-! ### Reading -/

/-- `list_deny`. -/
def listDeny (config : Config) : Except String (List (Ipv4Addr × Ipv4Addr)) := do
  config.validate
  return config.acl.normalizedDeny

/-- Id of the rule for one direction of a denied pair. -/
def migratedId (index : Nat) (suffix : String) : String :=
  s!"legacy-{index}-{suffix}"

/-- The rule `read_policy` shows for one direction of a denied pair. -/
def migratedRule (index : Nat) (suffix : String) (source destination : Ipv4Addr) : AclRule where
  id := migratedId index suffix
  action := .deny
  source := .subnet (Ipv4Net.host source)
  destination := .subnet (Ipv4Net.host destination)

/-- Both directions of each denied pair. -/
def migratedRules (config : Config) : List AclRule :=
  config.acl.normalizedDeny.zipIdx.flatMap (fun entry =>
    [migratedRule entry.2 "a-b" entry.1.1 entry.1.2,
      migratedRule entry.2 "b-a" entry.1.2 entry.1.1])

/-- `read_policy`: denied pairs are shown as rules before the others. -/
def readPolicy (config : Config) : Except String PolicySettings := do
  config.validate
  return {
    default := config.acl.default
    groups := config.acl.groups
    rules := migratedRules config ++ config.acl.rules }

/-! ### Writing -/

/-- `target_item`: a free text is written as `any`. -/
def targetItem : AclTarget → AclTarget
  | .any _ => .any "any"
  | target => target

/-- A rule as the file holds it afterwards. -/
def ruleItem (rule : AclRule) : AclRule :=
  { rule with source := targetItem rule.source, destination := targetItem rule.destination }

/-- The section `[acl]` with the policy in it and no denied pairs. -/
def PolicySettings.toAcl (policy : PolicySettings) : AclConfig where
  default := policy.default
  groups := policy.groups
  rules := policy.rules.map ruleItem

/-- `write_policy`, on the document that was read under the lock. -/
def writePolicy (doc : Config) (policy : PolicySettings) : Except String Config :=
  writeValidated { doc with acl := policy.toAcl }

/-- `write_deny`: the section is left with the pairs and nothing else. -/
def writeDeny (doc : Config) (deny : List (Ipv4Addr × Ipv4Addr)) : Config :=
  { doc with acl := { deny := sortDedup pairLe (deny.map orderPair) } }

/-- `set_deny`. -/
def setDeny (doc : Config) (deny : List (Ipv4Addr × Ipv4Addr)) : Except String Config :=
  writeValidated (writeDeny doc deny)

/-! ### Permission groups -/

/-- Room for the suffix of a numbered id. -/
def truncateBase (base : String) : String :=
  if Text.len base > 55 then
    Text.trimEndMatches (· = '-') (String.ofList (base.toList.take 55))
  else
    base

/-- `unique_group_id`.  `random` is the id of the last resort. -/
def uniqueGroupId (existing : List AclGroup) (name random : String) : String :=
  let base := truncateBase ((Names.dnsLabel name).getD "group")
  let free := fun (candidate : String) => existing.all (fun group => group.id ≠ candidate)
  let candidates := base :: (List.range' 2 998).map (fun n => s!"{base}-{n}")
  (candidates.find? free).getD random

/-- `iter_mut().find(…)`: the first group with this id is changed. -/
def changeGroup (id : String) (change : AclGroup → AclGroup) : List AclGroup → List AclGroup
  | [] => []
  | group :: rest =>
      if group.id = id then change group :: rest else group :: changeGroup id change rest

def groupMissing (id : String) : String :=
  s!"権限グループ {id} がありません"

/-- The policy `perm_group_create` writes, with the id of the new group. -/
def permGroupCreatePolicy (config : Config) (name : String) (members : List PublicKey)
    (random : String) : Except String (String × PolicySettings) := do
  let policy ← readPolicy config
  let id := uniqueGroupId policy.groups name random
  let created : AclGroup := { id := id, name := Text.trim name, members := members }
  return (id, { policy with groups := policy.groups ++ [created] })

/-- The policy `perm_group_rename` writes. -/
def permGroupRenamePolicy (config : Config) (id name : String) : Except String PolicySettings := do
  let policy ← readPolicy config
  refuseIf (policy.groups.all (fun group => group.id ≠ id)) (groupMissing id)
  let rename := fun (group : AclGroup) => { group with name := Text.trim name }
  return { policy with groups := changeGroup id rename policy.groups }

/-- The policy `perm_group_set_members` writes. -/
def permGroupSetMembersPolicy (config : Config) (id : String) (members : List PublicKey) :
    Except String PolicySettings := do
  let policy ← readPolicy config
  refuseIf (policy.groups.all (fun group => group.id ≠ id)) (groupMissing id)
  let replace := fun (group : AclGroup) => { group with members := members }
  return { policy with groups := changeGroup id replace policy.groups }

/-- `target_references_group`. -/
def targetReferencesGroup (target : AclTarget) (id : String) : Bool :=
  target = .group id

/-- The policy `perm_group_delete` writes: rules that name the group go with it. -/
def permGroupDeletePolicy (config : Config) (id : String) : Except String PolicySettings := do
  let policy ← readPolicy config
  let groups := policy.groups.filter (fun group => group.id ≠ id)
  refuseIf (groups.length = policy.groups.length) (groupMissing id)
  let rules := policy.rules.filter (fun rule =>
    !targetReferencesGroup rule.source id && !targetReferencesGroup rule.destination id)
  return { policy with groups := groups, rules := rules }

/-- The policy `import_perm_groups` writes; none when there is nothing to do. -/
def importPermGroupsPolicy (config : Config) (groups : List AclGroup) :
    Except String (Option PolicySettings) :=
  if groups = [] then
    .ok none
  else do
    let policy ← readPolicy config
    if policy.groups = [] then
      return some { policy with groups := groups }
    else
      return none

end PeerCove
