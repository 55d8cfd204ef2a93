import EntityFoundry.Factory.Creation
/-! Entities from assets, and assets from trees. A creation that fails leaves no trace in the
systems; one by name keeps the id it was issued and the asset it read. -/
namespace EntityFoundry.Factory

def blueprintAsset (f : Factory) (name : String) : Except AssetError Bytes × Factory :=
  let filename := f.config.filename name
  let (answer, cache) := f.cache.getOrLoad filename
  let f := { f with cache := cache }
  match answer with
  | .loaded size bytes => (.ok bytes, f.note (.assetLoaded filename size))
  | answer => (answer.result, f)

def populateFromData (f : Factory) (e : Entity) (name : String) (data : Bytes) :
    Except FactoryError Unit × Factory :=
  match f.loader with
  | none => (.error .missingLoader, f)
  | some schema =>
    match schema.load f.types data with
    | .error error => (.error (.codec error), f)
    | .ok (t, warnings) =>
      let f := build e t (f.noteAll (warnings.map .schema))
      let f := { f with blueprintNames := f.blueprintNames.insert e name }
      (.ok (), f.note (.createdFromAsset e name))

def tryPopulateNamed (f : Factory) (e : Entity) (name : String) :
    Except FactoryError Unit × Factory :=
  if !e.isValid then (.error .invalidEntity, f)
  else if f.loader.isNone then (.error .missingLoader, f)
  else
    match f.blueprintAsset name with
    | (.error error, f) => (.error (.asset error), f)
    | (.ok data, f) => f.populateFromData e name data

def populateNamed (f : Factory) (e : Entity) (name : String) : Entity × Factory :=
  match f.tryPopulateNamed e name with
  | (.ok (), f) => (e, f)
  | (.error error, f) => (.invalid, f.note (.creationFailed e name error))

def createNamed (f : Factory) (name : String) : Entity × Factory :=
  let (e, f) := f.create
  f.populateNamed e name

def tryCreateFromData (f : Factory) (data : Bytes) (name : String) :
    Except FactoryError Entity × Factory :=
  if f.loader.isNone then (.error .missingLoader, f)
  else
    let (e, f) := f.create
    let (result, f) := f.populateFromData e name data
    (result.map fun _ => e, f)

def createFromData (f : Factory) (data : Bytes) (name : String) : Entity × Factory :=
  match f.tryCreateFromData data name with
  | (.ok e, f) => (e, f)
  | (.error error, f) => (.invalid, f.note (.creationFailed .invalid name error))

def finalize (f : Factory) (b : Blueprint) : Except FactoryError Bytes × Factory :=
  match f.finalizer with
  | none => (.error .missingFinalizer, f.note .finalizerMissing)
  | some schema => ((schema.finalize f.types b).mapError .codec, f)

def finalizeTree (f : Factory) (t : Tree) : Except FactoryError Bytes × Factory :=
  match f.finalizer with
  | none => (.error .missingFinalizer, f.note .finalizerMissing)
  | some schema =>
    let (result, warnings) := schema.finalizeTree f.types t
    (result.mapError .codec, f.noteAll (warnings.map .schema))

end EntityFoundry.Factory
