import EntityFoundry.Factory.Routing
/-! Starting a factory. The attached systems start in order; the type index and the adapters are
set only when every dependency was met. -/
namespace EntityFoundry.Factory

def startSystem (f : Factory) (system : SystemId) : Factory :=
  let registered := f.systems.keys
  let f := f.tell (.start system registered)
  { f with startup := f.startup.start system }

def start (f : Factory) : Except FactoryError Unit × Factory :=
  let f := f.attached.foldl startSystem f
  match f.startup.check with
  | .error violations =>
    let e := FactoryError.dependencies violations
    (.error e, f.note (.startedOutOfOrder e))
  | .ok () => (.ok (), f.note (.initialized f.attached.length f.routes.size))

def startWithNames (f : Factory) (names : List String) : Except FactoryError Unit × Factory :=
  match f.start with
  | (.error e, f) => (.error e, f)
  | (.ok (), f) =>
    let types := TypeIndex.ofNames names
    (.ok (), { f with types := types }.note (.typesListed types.size))

def setLoader (f : Factory) (schema : Schema) : Factory := { f with loader := some schema }

def setFinalizer (f : Factory) (schema : Schema) : Factory := { f with finalizer := some schema }

def setHook (f : Factory) (hook : Hook) : Factory := { f with hook := hook }

def startLoader (f : Factory) (schema : Schema) : Factory :=
  (if f.types.isEmpty then f.note .loaderBeforeTypes else f).setLoader schema

def startFinalizer (f : Factory) (schema : Schema) : Factory :=
  (if f.types.isEmpty then f.note .finalizerBeforeTypes else f).setFinalizer schema

def startSchema (f : Factory) (schema : Schema) (names : List String) :
    Except FactoryError Unit × Factory :=
  match f.startWithNames names with
  | (.error e, f) => (.error e, f)
  | (.ok (), f) => (.ok (), (f.startLoader schema).startFinalizer schema)

end EntityFoundry.Factory
