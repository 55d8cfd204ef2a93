import EntityFoundry.Console.Directive
/-! Notices as lines of text, and which of them are shown. A filter is a list of directives; of
those that fit a notice, the one with the longest target decides. -/
namespace EntityFoundry

def Notice.origin : Notice → String
  | .schema (.childrenDropped ..) => "engine_codec::finalizer"
  | .schema _ => "engine_codec::loader"
  | .dependencyDeclared .. => "engine_system::dependency"
  | .registered _ => "engine_system::registry"
  | .assetLoaded .. => "engine_factory::asset"
  | .spawned .. | .placed .. => "engine_app::systems"
  | .childAttached .. => "engine_app::hierarchy"
  | .milestone _ => "engine_app"
  | _ => "engine_factory::factory"

namespace Console

def levelText : Level → String
  | .error => "ERROR"
  | .warn => "WARN"
  | .info => "INFO"
  | .debug => "DEBUG"

def valueText : FieldValue → String
  | .shown s => s
  | .text s => Text.quoted s
  | .count n => toString n
  | .flag b => toString b
  | .single x => x.toDouble.general

def line (name : SystemId → String) (n : Notice) : String :=
  let fields := (n.fields name).map fun (key, value) => s!" {key}=" ++ valueText value
  levelText n.level ++ " " ++ n.origin ++ ": " ++ n.message ++ "".intercalate fields

def readings (text : String) : List (String × Except DirectiveFault (Option Directive)) :=
  ((text.splitOn ",").filter (! ·.isEmpty)).map fun piece => (piece, Directive.read piece)

/-- The directives of a text, of those for one target and field the last, errors alone where nothing
is given; and `always` besides, as if it came last. -/
def filter (text : String) (always : Directive) : List Directive :=
  let given := (readings text).filterMap fun (_, reading) => reading.toOption
  let directives := (given.filterMap id).foldl Directive.put []
  Directive.put (if given.isEmpty then [⟨"", none, Level.error.detail⟩] else directives) always

def ignored (text : String) : List String :=
  (readings text).filterMap fun
    | (piece, .error fault) => some s!"ignoring `{piece}`: {fault.message}"
    | (_, .ok _) => none

def shows (directives : List Directive) (n : Notice) : Bool :=
  let fields := "message" :: (n.fields fun _ => "").map (·.1)
  match Directive.leading? (directives.filter (·.fits n.origin fields)) with
  | some d => n.level.detail ≤ d.detail
  | none => false

def lines (name : SystemId → String) (directives : List Directive) (history : List Entry) :
    List String :=
  history.filterMap fun
    | .notice n => if shows directives n then some (line name n) else none
    | .call _ => none

end Console
end EntityFoundry
