import ExprLang.Expr.Printer
import ExprLang.Proofs.SourceTrees

/-!
# How deeply the text of a tree nests

The printer puts an operand in parentheses where it binds less tightly than its place asks for, and
between two minus signs.  Only the latter may make the text of a tree nest deeper than the text that
the tree was read from: without them every parenthesis stands for one of the source.

* `nesting`: the nesting of the text of a tree, by the places of its operands.
* `nesting_lt_of_derives`: the nesting that any text of a tree has.
* `nesting_eq_of_noDoubleMinus`: where no minus stands before another, that of the printed text.
-/

namespace ExprLang
namespace Expr

/-- A nesting, and one more for the parentheses around an operand that binds less tightly than its
place asks for. -/
def wrapped (e : Expr) (minimum inside : Nat) : Nat :=
  if e.precedence < minimum then inside + 1 else inside

/-- Whether a tree is written with a minus sign in front that no parenthesis precedes. -/
def beginsWithMinus : Expr → Bool
  | unary _ .neg _ => true
  | literal _ v => isNegativeLiteral v
  | _ => false

mutual

/-- How deeply expressions nest inside the text of a tree.  Parentheses that keep a minus sign apart
from another count as `apart`. -/
def nesting (apart : Nat) : Expr → Nat
  | literal .. | ident .. | localRef .. => 0
  | unary _ .not operand => wrapped operand unaryPrecedence (nesting apart operand)
  | unary _ .neg operand =>
      if operand.beginsWithMinus then nesting apart operand + apart
      else wrapped operand unaryPrecedence (nesting apart operand)
  | binary _ op left right =>
      max (wrapped left op.precedence (nesting apart left))
        (wrapped right (op.precedence + 1) (nesting apart right))
  | ternary _ cond ifTrue ifFalse =>
      max (wrapped cond 1 (nesting apart cond))
        (max (nesting apart ifTrue + 1) (nesting apart ifFalse + 1))
  | list _ items => nestingItems apart items
  | map _ entries => nestingEntries apart entries
  | select _ operand _ => wrapped operand primaryPrecedence (nesting apart operand)
  | index _ operand key =>
      max (wrapped operand primaryPrecedence (nesting apart operand)) (nesting apart key + 1)
  | call _ _ target args => max (nestingTarget apart target) (nestingItems apart args)
  | invoke _ callee args =>
      max (wrapped callee primaryPrecedence (nesting apart callee)) (nestingItems apart args)
  | has _ access => nesting apart access + 1
  | comprehension _ _ target _ guard body =>
      max (wrapped target primaryPrecedence (nesting apart target))
        (max (nestingGuard apart guard) (nesting apart body + 1))

/-- How deeply the items of a list nest. -/
def nestingItems (apart : Nat) : List Expr → Nat
  | [] => 0
  | e :: rest => max (nesting apart e + 1) (nestingItems apart rest)

/-- How deeply the entries of a map nest. -/
def nestingEntries (apart : Nat) : List (Expr × Expr) → Nat
  | [] => 0
  | (k, v) :: rest =>
      max (max (nesting apart k + 1) (nesting apart v + 1)) (nestingEntries apart rest)

/-- How deeply the target of a method call nests. -/
def nestingTarget (apart : Nat) : Option Expr → Nat
  | none => 0
  | some e => wrapped e primaryPrecedence (nesting apart e)

/-- How deeply the guard of a comprehension nests. -/
def nestingGuard (apart : Nat) : Option Expr → Nat
  | none => 0
  | some e => nesting apart e + 1

end

section Bounds

variable {apart n : Nat}

theorem nestingItems_le_iff
    {items : List Expr} :
    nestingItems apart items ≤ n ↔ ∀ e ∈ items, nesting apart e + 1 ≤ n := by
  induction items with
  | nil => simp [nestingItems]
  | cons e rest ih => rw [nestingItems, Nat.max_le, ih, List.forall_mem_cons]

theorem nestingEntries_le_iff
    {entries : List (Expr × Expr)} :
    nestingEntries apart entries ≤ n ↔
      ∀ kv ∈ entries, nesting apart kv.1 + 1 ≤ n ∧ nesting apart kv.2 + 1 ≤ n := by
  induction entries with
  | nil => simp [nestingEntries]
  | cons entry rest ih =>
      rw [nestingEntries, Nat.max_le, Nat.max_le, ih, List.forall_mem_cons]

/-- The more tightly a place binds, the deeper an operand nests in it. -/
theorem wrapped_mono
    {e : Expr} {p q inside : Nat}
    (h : p ≤ q) :
    wrapped e p inside ≤ wrapped e q inside := by
  unfold wrapped
  split <;> split <;> omega

theorem wrapped_eq_self
    {e : Expr} {p inside : Nat}
    (h : p ≤ e.precedence) :
    wrapped e p inside = inside :=
  if_neg (Nat.not_lt.mpr h)

theorem le_wrapped
    {e : Expr} {p inside : Nat} :
    inside ≤ wrapped e p inside := by
  unfold wrapped
  split <;> omega

theorem wrapped_le_succ
    {e : Expr} {p inside : Nat} :
    wrapped e p inside ≤ inside + 1 := by
  unfold wrapped
  split <;> omega

end Bounds

/-! ### Binding names and changing marks -/

section Rewriting

variable {apart apart' : Nat} {g : Expr → Expr}

theorem nestingItems_map
    {items : List Expr}
    (same : ∀ e ∈ items, nesting apart (g e) = nesting apart' e) :
    nestingItems apart (items.map g) = nestingItems apart' items := by
  induction items with
  | nil => rfl
  | cons e rest ih =>
      rw [List.forall_mem_cons] at same
      rw [List.map_cons, nestingItems, nestingItems, same.1, ih same.2]

theorem nestingEntries_map
    {entries : List (Expr × Expr)}
    (same : ∀ kv ∈ entries, nesting apart (g kv.1) = nesting apart' kv.1 ∧
      nesting apart (g kv.2) = nesting apart' kv.2) :
    nestingEntries apart (entries.map fun (k, v) => (g k, g v)) = nestingEntries apart' entries := by
  induction entries with
  | nil => rfl
  | cons entry rest ih =>
      rw [List.forall_mem_cons] at same
      rw [List.map_cons, nestingEntries, nestingEntries, same.1.1, same.1.2, ih same.2]

end Rewriting

section Binding

variable {apart : Nat} {names : List String}

@[simp] theorem precedence_bindLocals
    (e : Expr) :
    (bindLocals names e).precedence = e.precedence := by
  cases e with
  | ident _ name => by_cases h : name ∈ names <;> simp [bindLocals, precedence, h]
  | _ => rfl

@[simp] theorem beginsWithMinus_bindLocals
    (e : Expr) :
    (bindLocals names e).beginsWithMinus = e.beginsWithMinus := by
  cases e with
  | ident _ name => by_cases h : name ∈ names <;> simp [bindLocals, beginsWithMinus, h]
  | unary _ op _ => cases op <;> rfl
  | _ => rfl

/-- Binding names does not change how a tree nests. -/
@[simp] theorem nesting_bindLocals
    (e : Expr) :
    nesting apart (bindLocals names e) = nesting apart e := by
  induction e using induction_nodes with
  | ident _ name => by_cases h : name ∈ names <;> simp [bindLocals, nesting, h]
  | unary _ op _ ih => cases op <;> simp [bindLocals, nesting, wrapped, ih]
  | list _ items ih => simp [bindLocals, bindItems_eq_map, nesting, nestingItems_map ih]
  | map _ entries ih => simp [bindLocals, bindEntries_eq_map, nesting, nestingEntries_map ih]
  | call _ _ target args ihTarget ihArgs =>
      cases target <;>
        simp_all [bindLocals, bindItems_eq_map, bindOption, nesting, nestingTarget, wrapped,
          nestingItems_map ihArgs]
  | invoke _ callee args ihCallee ihArgs =>
      simp [bindLocals, bindItems_eq_map, nesting, wrapped, ihCallee, nestingItems_map ihArgs]
  | comprehension _ _ target _ guard body ihTarget ihGuard ihBody =>
      cases guard <;> simp_all [bindLocals, bindOption, nesting, nestingGuard, wrapped]
  | _ => simp_all [bindLocals, nesting, wrapped]

end Binding

section Erasing

variable {apart : Nat}

@[simp] theorem precedence_erase
    (e : Expr) :
    e.erase.precedence = e.precedence := by
  cases e <;> simp [precedence]

@[simp] theorem beginsWithMinus_erase
    (e : Expr) :
    e.erase.beginsWithMinus = e.beginsWithMinus := by
  cases e with
  | unary _ op _ => cases op <;> simp [beginsWithMinus]
  | _ => simp [beginsWithMinus]

/-- Marks do not matter. -/
@[simp] theorem nesting_erase
    (e : Expr) :
    nesting apart e.erase = nesting apart e := by
  induction e using induction_nodes with
  | unary _ op _ ih => cases op <;> simp [nesting, wrapped, ih]
  | list _ items ih => simp [nesting, nestingItems_map ih]
  | map _ entries ih => simp [nesting, nestingEntries_map ih]
  | call _ _ target args ihTarget ihArgs =>
      cases target <;> simp_all [nesting, nestingTarget, wrapped, nestingItems_map ihArgs]
  | invoke _ callee args ihCallee ihArgs =>
      simp [nesting, wrapped, ihCallee, nestingItems_map ihArgs]
  | comprehension _ _ target _ guard body ihTarget ihGuard ihBody =>
      cases guard <;> simp_all [nesting, nestingGuard, wrapped]
  | _ => simp_all [nesting, wrapped]

end Erasing

/-! ### Minus signs -/

/-- Whether a node is a minus sign in front of another. -/
def isDoubleMinus : Expr → Bool
  | unary _ .neg operand => operand.beginsWithMinus
  | _ => false

/-- Where no minus stands before another, keeping them apart costs nothing. -/
theorem nesting_eq_of_noDoubleMinus
    {e : Expr}
    (none : Everywhere (fun x => x.isDoubleMinus = false) e)
    (apart : Nat) :
    nesting apart e = nesting 0 e := by
  induction e using induction_nodes with
  | literal | ident | localRef => rfl
  | unary _ op operand ih =>
      have same := ih (none.child (by simp [children]))
      cases op with
      | not => simp [nesting, same]
      | neg =>
          have single : operand.beginsWithMinus = false := none.root
          simp [nesting, single, same]
  | list _ items ih =>
      have same := nestingItems_map (g := fun e => e) fun e member => ih e member (none.child member)
      simpa [nesting] using same
  | map _ entries ih =>
      have inside : ∀ kv ∈ entries, ∀ e ∈ [kv.1, kv.2], Everywhere _ e := fun kv member e part =>
        none.child (List.mem_flatMap.mpr ⟨kv, member, part⟩)
      have same := nestingEntries_map (g := fun e => e) fun kv member =>
        ⟨(ih kv member).1 (inside kv member _ (by simp)),
          (ih kv member).2 (inside kv member _ (by simp))⟩
      simpa [nesting] using same
  | call _ _ target args ihTarget ihArgs =>
      have inside : ∀ e ∈ target.toList ++ args, Everywhere _ e := fun e member =>
        none.child member
      have same := nestingItems_map (g := fun e => e) fun e member =>
        ihArgs e member (inside e (by simp [member]))
      cases target with
      | none => simpa [nesting, nestingTarget] using same
      | some t =>
          have sameTarget := ihTarget t rfl (inside t (by simp))
          simp_all [nesting, nestingTarget]
  | invoke _ callee args ihCallee ihArgs =>
      have inside : ∀ e ∈ callee :: args, Everywhere _ e := fun e member => none.child member
      have same := nestingItems_map (g := fun e => e) fun e member =>
        ihArgs e member (inside e (by simp [member]))
      simp_all [nesting]
  | comprehension _ _ target _ guard body ihTarget ihGuard ihBody =>
      have inside : ∀ e ∈ target :: guard.toList ++ [body], Everywhere _ e := fun e member =>
        none.child member
      cases guard <;> simp_all [nesting, nestingGuard]
  | _ =>
      have inside := fun c => none.child (c := c)
      simp_all [nesting, children]

end Expr

/-! ### Texts -/

namespace Grammar

open ExprLang.Expr (nesting nestingItems nestingEntries nestingItems_le_iff nestingEntries_le_iff
  wrapped wrapped_mono wrapped_eq_self le_wrapped blank)
open ExprLang.Parser (Level)

/-- Whether a tree, in a place that binds with the given precedence, nests at most `n` deep. -/
def NestsAt (minimum n : Nat) (e : Expr) : Prop :=
  wrapped e minimum (nesting 0 e) ≤ n

section NestsAt

variable {p q n : Nat} {e : Expr}

theorem NestsAt.looser
    (h : NestsAt q n e)
    (le : p ≤ q) :
    NestsAt p n e :=
  (wrapped_mono le).trans h

theorem NestsAt.nesting_le
    (h : NestsAt p n e) :
    nesting 0 e ≤ n :=
  le_wrapped.trans h

theorem nestsAt_of_precedence
    (tight : p ≤ e.precedence)
    (h : nesting 0 e ≤ n) :
    NestsAt p n e :=
  (wrapped_eq_self tight).trans_le h

end NestsAt

/-- The precedence of chains whose operators are of the given levels. -/
def chainPrecedence (levels : List Level) : Nat :=
  6 - levels.length

theorem precedence_of_mem_level
    {level : Level} {tighter : List Level} {text : String} {op : BinaryOp}
    (levels : (level :: tighter) <:+ operatorLevels)
    (ofLevel : (text, op) ∈ level) :
    op.precedence = chainPrecedence (level :: tighter) ∧
      op.precedence + 1 = chainPrecedence tighter := by
  have each : ∀ levels ∈ operatorLevels.tails, ∀ level ∈ levels.head?, ∀ p ∈ level,
      p.2.precedence = chainPrecedence levels ∧
        p.2.precedence + 1 = chainPrecedence levels.tail := by decide
  exact each _ ((List.mem_tails _ _).mpr levels) level rfl _ ofLevel

theorem nestsAt_prefixed
    (ops : List UnaryOp)
    {n : Nat} {e : Expr}
    (h : NestsAt Expr.unaryPrecedence n e) :
    NestsAt Expr.unaryPrecedence n (prefixed ops e) := by
  induction ops with
  | nil => exact h
  | cons op ops ih =>
      refine nestsAt_of_precedence (Nat.le_refl _) ?_
      change nesting 0 (.unary blank op (prefixed ops e)) ≤ n
      cases op with
      | not => exact ih
      | neg =>
          rw [nesting]
          split
          · exact ih.nesting_le
          · exact ih

/-- How deeply the trees of a phrase may nest where expressions nest at most `n` deep.  What follows
an operand nests as deeply as the operand allows. -/
def Phrase.NestsWithin (n : Nat) : Phrase → Prop
  | .expr e => nesting 0 e < n
  | .chain levels e => levels <:+ operatorLevels → NestsAt (chainPrecedence levels) n e
  | .operators level tighter left e =>
      (level :: tighter) <:+ operatorLevels → NestsAt (chainPrecedence (level :: tighter)) n left →
        NestsAt (chainPrecedence (level :: tighter)) n e
  | .unary e => NestsAt Expr.unaryPrecedence n e
  | .member e | .primary e => NestsAt Expr.primaryPrecedence n e
  | .postfixes inner e =>
      NestsAt Expr.primaryPrecedence n inner → NestsAt Expr.primaryPrecedence n e
  | .items _ es => nestingItems 0 es ≤ n
  | .entries kvs => nestingEntries 0 kvs ≤ n

/-- No minus sign belongs to the token of a literal. -/
theorem precedence_of_literalValue?
    {t : Token} {v : Value}
    (lawful : Lexer.Lawful t)
    (value : literalValue? t = some v) :
    (Expr.literal blank v).precedence = Expr.primaryPrecedence := by
  obtain ⟨kind, text, span⟩ := t
  cases kind with
  | int n =>
      simp only [literalValue?, Option.ite_none_right_eq_some, Option.some.injEq] at value
      obtain ⟨-, rfl⟩ := value
      simp [Expr.precedence, Expr.isNegativeLiteral]
  | uint n =>
      simp only [literalValue?, Option.ite_none_right_eq_some, Option.some.injEq] at value
      obtain ⟨-, rfl⟩ := value
      rfl
  | float f =>
      cases value
      have unsigned : Number.IsUnsigned f := lawful
      simp [Expr.precedence, Expr.isNegativeLiteral, unsigned.isBelowZero]
  | _ =>
      cases value
      try rfl

theorem nestsAt_functionCall
    {n : Nat} {name : String} {args : List Expr} {e : Expr}
    (meaning : FunctionCall name args e)
    (hargs : nestingItems 0 args ≤ n) :
    NestsAt Expr.primaryPrecedence n e := by
  cases meaning with
  | presence _ =>
      refine nestsAt_of_precedence (Nat.le_refl _) ?_
      simpa [nesting, nestingItems] using hargs
  | call _ =>
      refine nestsAt_of_precedence (Nat.le_refl _) ?_
      simpa [nesting, Expr.nestingTarget] using hargs

theorem nestsAt_methodCall
    {n : Nat} {name : String} {target : Expr} {args : List Expr} {e : Expr}
    (meaning : MethodCall name target args e)
    (htarget : NestsAt Expr.primaryPrecedence n target)
    (hargs : nestingItems 0 args ≤ n) :
    NestsAt Expr.primaryPrecedence n e := by
  have htarget : wrapped target Expr.primaryPrecedence (nesting 0 target) ≤ n := htarget
  cases meaning with
  | call _ =>
      refine nestsAt_of_precedence (Nat.le_refl _) ?_
      exact Nat.max_le.mpr ⟨htarget, hargs⟩
  | single _ | pair _ _ | guarded _ _ =>
      refine nestsAt_of_precedence (Nat.le_refl _) ?_
      simp_all [nesting, nestingItems, Expr.nestingGuard]

/-- Every phrase keeps within its nesting, by induction on its derivation. -/
theorem nestsWithin_of_derives
    {n : Nat} {p : Phrase} {i r : List Token}
    (h : Derives n p i r) :
    AllLawful i → p.NestsWithin n := by
  induction h with
  | plain _ ih =>
      exact fun lawful => Nat.lt_succ_of_le (ih lawful (List.suffix_refl _)).nesting_le
  | ternary condition _ ifTrue _ _ ihc iha ihb =>
      intro lawful
      have afterCondition := (lawful.after condition).tail
      have hc := ihc lawful (List.suffix_refl _)
      have ha := iha afterCondition
      have hb := ihb (afterCondition.after ifTrue).tail
      exact Nat.lt_succ_of_le (Nat.max_le.mpr ⟨hc, Nat.max_le.mpr ⟨ha, hb⟩⟩)
  | operand _ ih => exact fun lawful _ => ih lawful
  | chain first _ ihFirst ihOthers =>
      intro lawful levels
      have tighter := ihFirst lawful ((List.suffix_cons _ _).trans levels)
      exact ihOthers (lawful.after first) levels (tighter.looser (by simp [chainPrecedence]; omega))
  | operatorsEnd => exact fun _ _ => id
  | operator ofLevel _ next _ ihNext ihOthers =>
      intro lawful levels left
      obtain ⟨here, above⟩ := precedence_of_mem_level levels ofLevel
      have right := ihNext lawful.tail ((List.suffix_cons _ _).trans levels)
      rw [← above] at right
      rw [← here] at left
      refine ihOthers (lawful.tail.after next) levels (nestsAt_of_precedence here.ge ?_)
      exact Nat.max_le.mpr ⟨left, right⟩
  | prefixed _ _ _ ih =>
      intro lawful
      have inner := ih fun t member => lawful t (by simp [member])
      exact nestsAt_prefixed _ (NestsAt.looser inner (by decide))
  | @negative _ _ _ _ _ k _ _ _ _ _ =>
      refine fun _ => nestsAt_prefixed _ (nestsAt_of_precedence ?_ (Nat.zero_le _))
      rw [Expr.precedence]
      split <;> decide
  | member first _ ihFirst ihOthers =>
      exact fun lawful => ihOthers (lawful.after first) (ihFirst lawful)
  | postfixesEnd => exact fun _ => id
  | field _ _ _ _ ih =>
      exact fun lawful inner => ih lawful.tail.tail (nestsAt_of_precedence (Nat.le_refl _) inner)
  | method _ _ _ arguments meaning _ ihArguments ih =>
      intro lawful inner
      have inside := lawful.tail.tail.tail
      exact ih (inside.after arguments) (nestsAt_methodCall meaning inner (ihArguments inside))
  | index _ inside _ _ ihKey ih =>
      intro lawful inner
      refine ih (lawful.tail.after inside).tail (nestsAt_of_precedence (Nat.le_refl _) ?_)
      exact Nat.max_le.mpr ⟨inner, ihKey lawful.tail⟩
  | invocation _ arguments _ ihArguments ih =>
      intro lawful inner
      refine ih (lawful.tail.after arguments) (nestsAt_of_precedence (Nat.le_refl _) ?_)
      exact Nat.max_le.mpr ⟨inner, ihArguments lawful.tail⟩
  | literal value =>
      refine fun lawful => nestsAt_of_precedence ?_ (Nat.zero_le _)
      rw [precedence_of_literalValue? lawful.head value]
  | name _ _ _ => exact fun _ => nestsAt_of_precedence (Nat.le_refl _) (Nat.zero_le _)
  | call _ _ _ _ meaning ih => exact fun lawful => nestsAt_functionCall meaning (ih lawful.tail.tail)
  | group _ _ _ ih => exact fun lawful => Expr.wrapped_le_succ.trans (ih lawful.tail)
  | list _ _ ih =>
      exact fun lawful => nestsAt_of_precedence (Nat.le_refl _) (ih lawful.tail)
  | map _ _ ih =>
      exact fun lawful => nestsAt_of_precedence (Nat.le_refl _) (ih lawful.tail)
  | itemsEnd => exact fun _ => Nat.zero_le _
  | lastItem _ _ ih => exact fun lawful => Nat.max_le.mpr ⟨ih lawful, Nat.zero_le _⟩
  | item first _ _ ihFirst ihOthers =>
      exact fun lawful => Nat.max_le.mpr ⟨ihFirst lawful, ihOthers (lawful.after first).tail⟩
  | entriesEnd => exact fun _ => Nat.zero_le _
  | lastEntry key _ _ _ ihKey ihValue =>
      intro lawful
      have value := ihValue (lawful.after key).tail
      exact Nat.max_le.mpr ⟨Nat.max_le.mpr ⟨ihKey lawful, value⟩, Nat.zero_le _⟩
  | entry key _ value _ _ ihKey ihValue ihOthers =>
      intro lawful
      have afterKey := (lawful.after key).tail
      exact Nat.max_le.mpr ⟨Nat.max_le.mpr ⟨ihKey lawful, ihValue afterKey⟩,
        ihOthers (afterKey.after value).tail⟩

/-- An expression nests as deeply as its tree asks for, whatever text it was read from. -/
theorem nesting_lt_of_derives
    {n : Nat} {e : Expr} {i r : List Token}
    (h : Derives n (.expr e) i r)
    (lawful : AllLawful i) :
    nesting 0 e < n :=
  nestsWithin_of_derives h lawful

end Grammar

/-- What is parsed nests within the limit and within what is parsed whatever the limit. -/
theorem nesting_lt_of_parse
    {limit : Int} {source : List Char} {e : Expr}
    (parsed : parse limit source = .ok e) :
    e.nesting 0 < Parser.budget limit := by
  have derived := (parse_eq_ok_iff (scan_errors_of_parse parsed) _).mp ⟨e, parsed, rfl⟩
  rw [← Expr.nesting_erase]
  exact Grammar.nesting_lt_of_derives derived (Lexer.lawful_scanFrom 0 0 source)

end ExprLang
