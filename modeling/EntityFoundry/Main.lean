import EntityFoundry.Demo.Run
/-! The demonstration on the files of the machine. -/
namespace EntityFoundry.Demo

def faultOf : IO.Error → AssetFault
  | .alreadyExists .. => .occupied
  | .permissionDenied .. => .denied
  | .inappropriateType .. => .notDirectory
  | .illegalOperation .. => .isDirectory
  | _ => .notFound

def attempt {α : Type} (action : IO α) : IO (Except AssetFault α) := do
  try
    return .ok (← action)
  catch e =>
    return .error (faultOf e)

def complain (lines : List String) : IO Unit := do
  for line in lines do
    IO.eprintln line

def files : Machine IO where
  makeRoot root := attempt do
    unless root.isEmpty do IO.FS.createDirAll root
    return .memory {} 0
  write root filename bytes := attempt do
    let path := Path.join root filename
    IO.FS.writeBinFile path (ByteArray.mk bytes.toArray)
    let stored ← IO.FS.readBinFile path
    return .memory (Dict.insert {} filename stored.data.toList) 0
  print lines := do
    for line in lines do
      IO.println line

def main : IO UInt32 := do
  let temporary := (← IO.getEnv "TMPDIR").getD "/tmp"
  let root := assetRoot (← IO.getEnv "ENGINE_ASSET_ROOT") temporary
  let filter := (← IO.getEnv "RUST_LOG").getD ""
  complain (complaints filter none)
  match ← (perform files filter root).run with
  | .ok () => return 0
  | .error failure =>
    complain failure.report
    return 1

end EntityFoundry.Demo

def main : IO UInt32 := EntityFoundry.Demo.main
