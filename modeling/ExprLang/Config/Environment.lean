import ExprLang.Config
import ExprLang.Number.FloatText
import ExprLang.Text.Quoted

/-!
# Settings from environment variables

Each setting can be overridden by a variable of the environment.  A variable that is empty counts as
absent.
-/

namespace ExprLang

/-- Why a variable holds no integer. -/
inductive IntegerFault where
  | invalid (text : String)
  | tooManyDigits (count : Nat)
deriving DecidableEq, Repr

/-- The wording of a fault; at most two hundred characters of the text are shown. -/
def IntegerFault.message : IntegerFault → String
  | invalid text =>
      "invalid literal for int() with base 10: " ++
        String.ofList ((Text.Quoted.text text).toList.take 200)
  | tooManyDigits count => Number.tooManyDigitsMessage count

/-- The variables of an environment. -/
abbrev Variables := List (String × String)

namespace Variables

/-- What a variable holds, unless it is absent or empty. -/
def find? (env : Variables) (name : String) : Option String :=
  (env.lookup name).filter fun content => !content.isEmpty

/-- The integer that a variable holds. -/
def integer? (env : Variables) (name : String) : Except IntegerFault (Option Int) :=
  match env.find? name with
  | none => .ok none
  | some content =>
      match Number.readInt? content.toList with
      | none => .error (.invalid content)
      | some n =>
          let digits := (content.toList.filter Text.isDecimalDigit).length
          if digits > Number.integerDigitLimit then .error (.tooManyDigits digits)
          else .ok (some n)

/-- The truth value that a variable holds: everything is true but `0`, `false` and `no`. -/
def flag? (env : Variables) (name : String) : Option Bool :=
  (env.find? name).map fun content =>
    let word := String.ofList (content.toList.map Char.toLower)
    word != "0" && word != "false" && word != "no"

end Variables

/-- The settings with what the environment overrides. -/
def Config.override (base : Config) (env : Variables) : Except IntegerFault Config := do
  let depth ← env.integer? "BEL_MAX_NESTING_DEPTH"
  let size ← env.integer? "BEL_PROGRAM_CACHE_SIZE"
  pure {
    maxNestingDepth := depth.getD base.maxNestingDepth
    debug := (env.flag? "BEL_DEBUG").getD base.debug
    programCacheSize := size.getD base.programCacheSize }

end ExprLang
