import PoolKeeper.Json.Codec
import PoolKeeper.Termination

/-!
# Documents of machines and pools

* `Machine.codec`, `Pool.codec`, `PoolSize.codec`, `Scheduled.codec`, and those of their parts.
-/

namespace PoolKeeper

def MachineState.codec : Codec MachineState := .names text table

def ServiceState.codec : Codec ServiceState := .names text table

/-- Both flags are always there. -/
def Membership.codec : Codec Membership where
  encode m := .object [("active", .bool m.active), ("evictable", .bool m.evictable)]
  decode := .record ["active", "evictable"] fun depth slots =>
    match slots with
    | [active, evictable] => do
      let active ← active.required .bool depth
      let evictable ← evictable.required .bool depth
      some ⟨active, evictable⟩
    | _ => none

/-- Null metadata is left out, a missing launch time is null. -/
def Machine.codec : Codec Machine where
  encode m := .object <|
    [("id", .string m.id),
      ("launch_time", Codec.instant.encodeOption m.launched),
      ("machine_state", MachineState.codec.encode m.state),
      ("membership_status", Membership.codec.encode m.membership)]
    ++ (if m.metadata.isNull then [] else [("metadata", m.metadata)])
    ++ [("service_state", ServiceState.codec.encode m.service)]
  decode := .record
      ["id", "machine_state", "service_state", "membership_status", "launch_time", "metadata"]
      fun depth slots =>
    match slots with
    | [id, state, service, membership, launched, metadata] => do
      let id ← id.required .string depth
      let state ← state.required MachineState.codec.decode depth
      let service ← service.withDefault .unknown ServiceState.codec.decode depth
      let membership ← membership.withDefault .standard Membership.codec.decode depth
      let launched ← launched.optional .instant depth
      let metadata ← metadata.withDefault .null .json depth
      some { id, state, service, membership, launched, metadata }
    | _ => none

def Pool.codec : Codec Pool where
  encode p := .object [("machines", (Codec.list Machine.codec).encode p.machines),
    ("timestamp", Codec.instant.encode p.takenAt)]
  decode := .record ["machines", "timestamp"] fun depth slots =>
    match slots with
    | [machines, takenAt] => do
      let machines ← machines.required (Codec.list Machine.codec).decode depth
      let takenAt ← takenAt.required .instant depth
      some ⟨machines, takenAt⟩
    | _ => none

def PoolSize.codec : Codec PoolSize where
  encode s := .object [("allocated", .nat s.allocated), ("desired", .nat s.desired),
    ("effective", .nat s.effective)]
  decode := .record ["desired", "allocated", "effective"] fun depth slots =>
    match slots with
    | [desired, allocated, effective] => do
      let desired ← desired.required .nat depth
      let allocated ← allocated.required .nat depth
      let effective ← effective.required .nat depth
      some ⟨desired, allocated, effective⟩
    | _ => none

def Scheduled.codec : Codec Scheduled where
  encode s := .object [("machine", Machine.codec.encode s.machine),
    ("termination_time", Codec.instant.encode s.time)]
  decode := .record ["machine", "termination_time"] fun depth slots =>
    match slots with
    | [machine, time] => do
      let machine ← machine.required Machine.codec.decode depth
      let time ← time.required .instant depth
      some ⟨machine, time⟩
    | _ => none

end PoolKeeper
