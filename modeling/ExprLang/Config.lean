/-!
# Settings of the engine
-/

namespace ExprLang

/-- How deeply expressions may nest, whether a trace is kept, and how many compiled programs a
runner keeps.  The numbers are taken as they are given, negative ones included. -/
structure Config where
  maxNestingDepth : Int
  debug : Bool
  programCacheSize : Int
deriving DecidableEq, Repr

/-- The settings where nothing else is said. -/
def Config.standard : Config := ⟨64, false, 256⟩

instance : Inhabited Config := ⟨.standard⟩

end ExprLang
