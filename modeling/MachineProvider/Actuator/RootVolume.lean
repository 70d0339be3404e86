import MachineProvider.Program
/-!
Tags on a root volume. The volume of a new server appears late, so the server is asked again and
again on a retry schedule.
-/
namespace MachineProvider

open Cloud (Server Tags)

/-- Why tagging ends without success. -/
inductive TaggingError where
  | timeout (cause : TaggingTimeout)
  | invalidDelay
deriving DecidableEq

/-- One look at the server and, if its root volume is there, one update. -/
def tryTag (uuid : String) (tags : Tags) : Program (Except AttemptError Unit) := do
  let found : Except Cloud.Error Server ← Program.perform (.cloud (.getServer uuid))
  match found with
  | .error e => return .error (.provider s!"failed to get server: {e.message}")
  | .ok server =>
    match server.volumes with
    | [] => return .error .noVolumes
    | volume :: _ =>
      if volume.uuid.isEmpty then return .error .emptyVolumeUuid
      else
        let updated : Except Cloud.Error Unit ←
          Program.perform (.cloud (.updateVolume volume.uuid ⟨tags⟩))
        match updated with
        | .error e => return .error (.provider s!"failed to tag volume {volume.uuid}: {e.message}")
        | .ok () => return .ok ()

/-- The next delay with its jitter, and the schedule after it; none when a product is
no duration. -/
def Backoff.draw (b : Backoff) : Program (Option (Nanoseconds × Backoff)) :=
  match b.next? with
  | none => return none
  | some (delay, rest) =>
    if b.jitter.toFloat ≤ 0 then return some (delay, rest)
    else do
      let spread : Option Double ← Program.perform (.draw b.jitter)
      return (spread.bind (b.jittered? delay)).map (·, rest)

/-- Attempts until one succeeds, with a delay between two; `left` more follow this one. -/
def tagAttempts (uuid : String) (tags : Tags) (attempts : Nat) :
    (left : Nat) → Backoff → Program (Except TaggingError Unit)
  | left, schedule => do
    match ← tryTag uuid tags with
    | .ok () => return .ok ()
    | .error e =>
      match left with
      | 0 => return .error (.timeout ⟨attempts, e⟩)
      | left + 1 =>
        match ← schedule.draw with
        | none => return .error .invalidDelay
        | some (delay, schedule) => do
          let () ← Program.perform (.sleep delay)
          tagAttempts uuid tags attempts left schedule

/-- At least one attempt is made. -/
def tagRootVolume (uuid : String) (tags : Tags) (schedule : Backoff) :
    Program (Except TaggingError Unit) :=
  let attempts := max schedule.steps 1
  tagAttempts uuid tags attempts (attempts - 1) schedule

end MachineProvider
