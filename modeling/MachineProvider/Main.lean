import MachineProvider.Startup
/-! The command: reads the environment, logs the start and reports why it failed. -/

open MachineProvider

/-- The variables the command looks at. -/
def settings : List String :=
  ["RUST_LOG", "KUBECONFIG", "CLOUDSCALE_API_URL", "CLOUDSCALE_API_TOKEN", "WATCH_NAMESPACE",
    "HEALTH_PROBE_BIND_ADDRESS"]

def readFile? (path : String) : IO (Option String) := do
  try return some (← IO.FS.readFile path) catch _ => return none

def main : IO UInt32 := do
  let values ← settings.mapM fun name => return (name, ← IO.getEnv name)
  let get? (name : String) : Option String := (values.lookup name).join
  let kubeconfig ← match get? "KUBECONFIG" with
    | some path => readFile? path
    | none => pure none
  let outcome := Startup.start get? kubeconfig
  for line in Startup.shown get? outcome.log do
    IO.println line.render
  match outcome.failure with
  | some text =>
    IO.eprintln s!"Error: {text}"
    return 1
  | none => return 0
