import ExprLang.Proofs.Lookahead
import ExprLang.Proofs.ParserSoundness

/-!
# What is derivable the parser accepts

A derivation is followed by the run of the parser on its tokens: the run stays clean, builds the
derived tree up to marks and leaves the tokens that the derivation leaves.  The parser looks at the
next token to see whether a phrase goes on, so what follows has to be no continuation of it; inside
a derivation that is always so.

* `accepts_of_derives`: the parser of each phrase follows the derivations of the phrase.
-/

namespace ExprLang
namespace Parser

open ExprLang.Expr (erase blank)
open Grammar

variable {n : Nat} {expr : Parser Expr} {i j r : List Token}

/-! ### Operators between operands -/

/-- The parser of a chain of operators. -/
def chainParser (expr : Parser Expr) : List Level → Parser Expr
  | [] => unary expr
  | level :: tighter => leftAssoc level (chainParser expr tighter)

section Operators

variable {level : Level} {tighter : List Level} {operand : Parser Expr} {start : Nat}

/-- A level has its operators under texts of their own. -/
theorem find?_operator
    {t : Token} {text : String} {op : BinaryOp}
    (known : level ∈ operatorLevels)
    (ofLevel : (text, op) ∈ level)
    (isOperator : t.isSymbol text = true) :
    level.find? (fun (text, _) => t.isSymbol text) = some (text, op) := by
  have apart : ∀ level ∈ operatorLevels, ∀ p ∈ level, ∀ q ∈ level, p.1 = q.1 → p = q := by decide
  cases h : level.find? (fun p => t.isSymbol p.1) with
  | none => exact absurd isOperator (List.find?_eq_none.mp h _ ofLevel)
  | some other =>
      obtain ⟨text', op'⟩ := other
      have isOther := List.find?_some h
      have same := symbol_unique isOther isOperator
      rw [apart level known _ (List.mem_of_find?_eq_some h) _ ofLevel same]

theorem find?_operator_none
    {t : Token}
    (follows : Follows (level :: tighter) (t :: i)) :
    level.find? (fun (text, _) => t.isSymbol text) = none := by
  refine List.find?_eq_none.mpr fun p hp => ?_
  have := follows p.1 (by grind [continuations])
  simpa [startsWith] using this

theorem gives_takeOperator?
    {t : Token} {text : String} {op : BinaryOp}
    (known : level ∈ operatorLevels)
    (ofLevel : (text, op) ∈ level)
    (isOperator : t.isSymbol text = true) :
    Gives (t :: i) (takeOperator? level) (· = some op) i := by
  refine .get fun s hs => ?_
  rw [hs]
  simp only [find?_operator known ofLevel isOperator]
  exact .bind gives_advance fun _ _ => .pure rfl

theorem gives_takeOperator?_none
    (follows : Follows (level :: tighter) i) :
    Gives i (takeOperator? level) (· = none) i := by
  refine .get fun s hs => ?_
  rw [hs]
  cases i with
  | nil => exact .pure rfl
  | cons t i =>
      simp only [find?_operator_none follows]
      exact .pure rfl

theorem gives_operatorLoop_end
    {left : Expr}
    (follows : Follows (level :: tighter) i)
    (fuel : Nat) :
    Gives i (operatorLoop level operand start fuel left) (· = left) i := by
  cases fuel with
  | zero => exact .pure rfl
  | succ fuel =>
      refine .bind (gives_takeOperator?_none follows) ?_
      rintro _ rfl
      exact .pure rfl

theorem gives_operatorLoop
    {fuel : Nat} {left right e : Expr} {t : Token} {text : String} {op : BinaryOp}
    (known : level ∈ operatorLevels)
    (ofLevel : (text, op) ∈ level)
    (isOperator : t.isSymbol text = true)
    (next : Gives i operand (·.erase = right) j)
    (others : ∀ left' : Expr, left'.erase = .binary blank op left.erase right →
      Gives j (operatorLoop level operand start fuel left') (·.erase = e) r) :
    Gives (t :: i) (operatorLoop level operand start (fuel + 1) left) (·.erase = e) r := by
  refine .bind (gives_takeOperator? known ofLevel isOperator) ?_
  rintro _ rfl
  refine .bind next fun right' hright => .bind gives_newMark fun mark _ => ?_
  exact others _ (by rw [Expr.erase_binary, hright])

theorem gives_leftAssoc
    {left e : Expr}
    (first : Gives i operand (·.erase = left) j)
    (others : ∀ start fuel (left' : Expr), j.length ≤ fuel → left'.erase = left →
      Gives j (operatorLoop level operand start fuel left') (·.erase = e) r) :
    Gives i (leftAssoc level operand) (·.erase = e) r := by
  refine .read fun _ _ => .bind first fun left' hleft => .read fun s hs => ?_
  exact others _ _ left' (by rw [hs]) hleft

end Operators

/-! ### Operators in front of an operand -/

theorem gives_takePrefixes
    {signs : List Token} {ops : List UnaryOp} {fuel : Nat}
    (areSigns : signs.map prefixOf? = ops.map some)
    (ends : ∀ t ∈ i.head?, prefixOf? t = none)
    (enough : signs.length ≤ fuel) :
    Gives (signs ++ i) (takePrefixes fuel) (·.map Prod.fst = ops) i := by
  induction signs generalizing ops fuel with
  | nil =>
      obtain rfl : ops = [] := by simpa using areSigns.symm
      cases fuel with
      | zero => exact .pure rfl
      | succ fuel =>
          refine .get fun s hs => ?_
          rw [hs, List.nil_append]
          cases i with
          | nil => exact .pure rfl
          | cons t i =>
              simp only [ends t rfl]
              exact .pure rfl
  | cons sign signs ih =>
      match ops, fuel with
      | op :: ops, fuel + 1 =>
          simp only [List.map_cons, List.cons.injEq] at areSigns
          refine .get fun s hs => ?_
          rw [hs]
          simp only [List.cons_append, areSigns.1]
          refine .bind gives_advance fun _ _ => ?_
          refine .bind (ih areSigns.2 (by simpa using enough)) fun others hothers => .pure ?_
          simp [hothers]

theorem gives_applyPrefixes
    (ops : List (UnaryOp × Nat)) (e : Expr) :
    Gives i (applyPrefixes ops e)
      (·.erase = prefixed (ops.map Prod.fst).reverse e.erase) i := by
  induction ops generalizing e with
  | nil => exact .pure rfl
  | cons op ops ih =>
      obtain ⟨op, start⟩ := op
      refine .bind gives_newMark fun mark _ => ?_
      simpa [prefixed] using ih (.unary mark op e)

/-! ### Literals -/

theorem gives_intLiteral
    {t : Token} {k start : Nat}
    (negative : Bool)
    (inRange : InIntRange (if negative then -(k : Int) else k)) :
    Gives i (intLiteral t k start negative)
      (·.erase = .literal blank (.int (if negative then -(k : Int) else k))) i := by
  rw [intLiteral, if_pos inRange]
  exact gives_node fun _ => rfl

theorem gives_valueLiteral
    {t : Token} {start : Nat} {v : Value} :
    Gives (t :: i) (valueLiteral start v) (·.erase = .literal blank v) i :=
  .bind gives_advance fun _ _ => gives_node fun _ => rfl

/-! ### Calls and macros -/

theorem gives_variableNames
    {macroName : String} {binders : List Expr} {names added : List String}
    (same : binders.map erase = added.map (Expr.ident blank))
    (distinct : (names ++ added).Nodup) :
    Gives i (variableNames macroName names binders) (· = names ++ added) i := by
  induction binders generalizing names added with
  | nil =>
      obtain rfl : added = [] := by simpa using same.symm
      exact .pure (by simp)
  | cons e rest ih =>
      match added with
      | x :: added =>
          simp only [List.map_cons, List.cons.injEq] at same
          have isName : e.identName? = some x := by
            rw [← Expr.identName?_erase, same.1]
            rfl
          have isNew : ¬ names.contains x = true := by grind
          simp only [variableNames, isName, if_neg isNew]
          have later : Gives i (variableNames macroName (names ++ [x]) rest)
              (· = names ++ [x] ++ added) i :=
            ih same.2 (by simpa using distinct)
          simpa using later

theorem gives_comprehension
    {start : Nat} {macroName : String} {kind : Comprehension} {target : Expr}
    {binders : List Expr} {guard : Option Expr} {body e : Expr}
    (names : List String)
    (same : binders.map erase = names.map (Expr.ident blank))
    (distinct : names.Nodup)
    (built : e = .comprehension blank kind target.erase names
      (Expr.bindOption names (guard.map erase)) (Expr.bindLocals names body.erase)) :
    Gives i (comprehension start macroName kind target binders guard body) (·.erase = e) i := by
  refine .bind (gives_variableNames same (by simpa using distinct)) ?_
  rintro _ rfl
  refine gives_node fun mark => ?_
  simp [built, Expr.map_erase_bindOption]

theorem gives_functionCall
    {start : Nat} {name : String} {nameSpan : Text.Span} {args : List Expr} {e : Expr}
    (meaning : FunctionCall name (args.map erase) e) :
    Gives i (functionCall start name nameSpan args) (·.erase = e) i := by
  generalize hargs : args.map erase = erased at meaning
  cases meaning with
  | presence isAccess =>
      obtain ⟨access, rfl, rfl⟩ := List.map_eq_singleton_iff.mp hargs
      rw [Expr.isAccess_erase] at isAccess
      rw [functionCall, if_pos rfl]
      simp only [presenceTest, if_pos isAccess]
      exact gives_node fun _ => rfl
  | call other =>
      rw [functionCall, if_neg other]
      exact gives_node fun _ => by rw [Expr.erase_call, hargs]; rfl

theorem erase_eq_ident_iff
    {e : Expr} {x : String} :
    e.erase = .ident blank x ↔ e.identName? = some x := by
  refine ⟨fun h => ?_, Expr.erase_eq_of_identName?⟩
  rw [← Expr.identName?_erase, h]
  rfl

theorem map_eq_pair
    {es : List Expr} {a b : Expr}
    (h : es.map erase = [a, b]) :
    ∃ x y, es = [x, y] ∧ x.erase = a ∧ y.erase = b := by
  obtain ⟨x, rest, rfl, hx, h⟩ := List.map_eq_cons_iff.mp h
  obtain ⟨y, rfl, hy⟩ := List.map_eq_singleton_iff.mp h
  exact ⟨x, y, rfl, hx, hy⟩

theorem map_eq_triple
    {es : List Expr} {a b c : Expr}
    (h : es.map erase = [a, b, c]) :
    ∃ x y z, es = [x, y, z] ∧ x.erase = a ∧ y.erase = b ∧ z.erase = c := by
  obtain ⟨x, rest, rfl, hx, h⟩ := List.map_eq_cons_iff.mp h
  obtain ⟨y, z, rfl, hy, hz⟩ := map_eq_pair h
  exact ⟨x, y, z, rfl, hx, hy, hz⟩

theorem gives_methodCall
    {start : Nat} {name : String} {target : Expr} {args : List Expr} {e : Expr}
    (meaning : MethodCall name target.erase (args.map erase) e) :
    Gives i (methodCall start name target args) (·.erase = e) i := by
  generalize hargs : args.map erase = erased at meaning
  generalize htarget : target.erase = erasedTarget at meaning
  cases meaning with
  | call other =>
      have ordinary : methodCall start name target args = (do
          return .call (← newMark start) name (some target) args) := by
        unfold methodCall
        split
        · next named => simp [named, ← hargs] at other
        · next named => simp [named, ← hargs] at other
        · rfl
      rw [ordinary]
      exact gives_node fun _ => by rw [Expr.erase_call, hargs, Option.map_some, htarget]
  | @single _ _ _ x named =>
      obtain ⟨a, body, rfl, ha, rfl⟩ := map_eq_pair hargs
      simp only [methodCall, named]
      exact gives_comprehension [x] (by simp [ha]) (by simp)
        (by simp [htarget, Expr.bindOption])
  | @pair _ _ _ x y named distinct =>
      obtain ⟨a, b, body, rfl, ha, hb, rfl⟩ := map_eq_triple hargs
      simp only [methodCall, named, erase_eq_ident_iff.mp hb, Option.isSome_some, if_true]
      exact gives_comprehension [x, y] (by simp [ha, hb]) (by simpa using distinct)
        (by simp [htarget, Expr.bindOption])
  | @guarded _ _ _ x named noName =>
      obtain ⟨a, guard, body, rfl, ha, rfl, rfl⟩ := map_eq_triple hargs
      rw [Expr.identName?_erase] at noName
      simp only [methodCall, named, noName, Option.isSome_none, ne_eq, not_true, if_false,
        Bool.false_eq_true]
      exact gives_comprehension [x] (by simp [ha]) (by simp)
        (by simp [htarget, Expr.bindOption])

/-! ### Items and entries -/

theorem gives_itemLoop_end
    {close : String} {t : Token} {fuel : Nat}
    (isClose : t.isSymbol close = true) :
    Gives (t :: i) (itemLoop expr close (fuel + 1)) (· = []) (t :: i) := by
  refine .read fun s hs => .read fun _ _ => ?_
  rw [hs]
  simp only [isClose, Bool.true_or, if_true]
  exact .pure rfl

/-- An item is read where there is a token that does not close the list. -/
theorem gives_itemLoop
    {close : String} {es : List Expr} {fuel : Nat}
    (known : close ∈ closers)
    (opens : Opens i)
    (body : Gives i (do
      let e ← expr
      if ← takeSymbol "," then
        let others ← itemLoop expr close fuel
        return e :: others
      else
        return [e]) (·.map erase = es) r) :
    Gives i (itemLoop expr close (fuel + 1)) (·.map erase = es) r := by
  obtain ⟨t, after, rfl, noCloser⟩ := opens
  refine .read fun s hs => .read fun s' hs' => ?_
  rw [hs, hs']
  simp only [noCloser close known, List.isEmpty_cons, Bool.or_self, Bool.false_eq_true, if_false]
  exact body

theorem gives_items
    {close : String} {es : List Expr} {t : Token}
    (isClose : t.isSymbol close = true)
    (inside : ∀ fuel, i.length ≤ fuel → Gives i (itemLoop expr close fuel) (·.map erase = es) (t :: r)) :
    Gives i (items expr close) (·.map erase = es) r := by
  refine .read fun s hs => ?_
  refine .bind (inside _ (by rw [hs])) fun es' hes => ?_
  exact .bind (gives_expect isClose) fun _ _ => .pure hes

theorem gives_entryLoop_end
    {t : Token} {fuel : Nat}
    (isClose : t.isSymbol "\x7d" = true) :
    Gives (t :: i) (entryLoop expr (fuel + 1)) (· = []) (t :: i) := by
  refine .read fun s hs => .read fun _ _ => ?_
  rw [hs]
  simp only [isClose, Bool.true_or, if_true]
  exact .pure rfl

/-- The trees of the entries of a map without their marks. -/
def eraseEntries (kvs : List (Expr × Expr)) : List (Expr × Expr) :=
  kvs.map fun (k, v) => (k.erase, v.erase)

theorem gives_entryLoop
    {k : Expr} {kvs : List (Expr × Expr)} {fuel : Nat} {colon : Token}
    (opens : Opens i)
    (key : Gives i expr (·.erase = k) (colon :: j))
    (isColon : colon.isSymbol ":" = true)
    (rest : ∀ key : Expr, key.erase = k → Gives j (do
      let value ← expr
      if ← takeSymbol "," then
        let others ← entryLoop expr fuel
        return (key, value) :: others
      else
        return [(key, value)]) (eraseEntries · = kvs) r) :
    Gives i (entryLoop expr (fuel + 1)) (eraseEntries · = kvs) r := by
  obtain ⟨t, after, rfl, noCloser⟩ := opens
  refine .read fun s hs => .read fun s' hs' => ?_
  rw [hs, hs']
  simp only [noCloser "\x7d" (by decide), List.isEmpty_cons, Bool.or_self, Bool.false_eq_true,
    if_false]
  refine .bind key fun key' hkey => .bind (gives_expect isColon) ?_
  rintro _ rfl
  exact rest key' hkey

theorem gives_mapBody
    {kvs : List (Expr × Expr)} {start : Nat} {t : Token}
    (isClose : t.isSymbol "\x7d" = true)
    (inside : ∀ fuel, i.length ≤ fuel → Gives i (entryLoop expr fuel) (eraseEntries · = kvs) (t :: r)) :
    Gives i (mapBody expr start) (·.erase = .map blank kvs) r := by
  refine .read fun s hs => ?_
  refine .bind (inside _ (by rw [hs])) fun kvs' hkvs => ?_
  refine .bind (gives_expect isClose) fun _ _ => gives_node fun mark => ?_
  rw [Expr.erase_map, ← hkvs]
  rfl

/-! ### The innermost parts -/

theorem gives_primary_literal
    {t : Token} {v : Value}
    (value : literalValue? t = some v) :
    Gives (t :: i) (primary expr) (·.erase = .literal blank v) i := by
  refine .read fun _ _ => .read fun s hs => ?_
  rw [hs]
  simp only [List.head?_cons]
  unfold literalValue? at value
  split at value
  · next k isInt =>
      simp only [isInt]
      split at value
      · next inRange =>
          cases value
          exact .bind gives_advance fun _ _ => gives_intLiteral false inRange
      · cases value
  · next k isUInt =>
      simp only [isUInt]
      split at value
      · next inRange =>
          cases value
          rw [uintLiteral, if_pos inRange]
          exact .bind gives_advance fun _ _ => gives_node fun _ => rfl
      · cases value
  all_goals first
    | (next isKind => cases value; simp only [isKind]; exact gives_valueLiteral)
    | cases value

theorem gives_primary_ident
    {t : Token} {A : Expr → Prop}
    (isName : t.isIdent = true)
    (named : Gives i (identifier expr t) A r) :
    Gives (t :: i) (primary expr) A r := by
  have isKind : t.kind = .ident := by
    cases hk : t.kind <;> simp_all [Token.isIdent]
  refine .read fun _ _ => .read fun s hs => ?_
  rw [hs]
  simp only [List.head?_cons, isKind]
  exact .bind gives_advance fun _ _ => named

theorem gives_identifier_name
    {t : Token}
    (unreserved : t.text ∉ reservedWords)
    (noCall : startsWith "(" i = false) :
    Gives i (identifier expr t) (·.erase = .ident blank t.text) i := by
  have unreserved : ¬ reservedWords.contains t.text = true := by simpa using unreserved
  simp only [identifier, if_neg unreserved]
  exact .ifNoSymbol noCall (gives_node fun _ => rfl)

theorem gives_identifier_call
    {t paren : Token} {args : List Expr} {e : Expr}
    (unreserved : t.text ∉ reservedWords)
    (isOpen : paren.isSymbol "(" = true)
    (arguments : Gives i (items expr ")") (·.map erase = args) r)
    (meaning : FunctionCall t.text args e) :
    Gives (paren :: i) (identifier expr t) (·.erase = e) r := by
  have unreserved : ¬ reservedWords.contains t.text = true := by simpa using unreserved
  simp only [identifier, if_neg unreserved]
  refine .ifSymbol isOpen (.bind arguments ?_)
  rintro args' rfl
  exact gives_functionCall meaning

theorem gives_primary_bracketed
    {t : Token} {text : String} {A : Expr → Prop}
    (isText : t.isSymbol text = true)
    (inside : ∀ start, Gives (t :: i) (bracketed expr start) A r) :
    Gives (t :: i) (primary expr) A r := by
  refine .read fun _ _ => .read fun s hs => ?_
  rw [hs]
  simp only [List.head?_cons]
  cases isKind : t.kind with
  | operator => exact inside _
  | punctuation => exact inside _
  | _ => simp [Token.isSymbol, isKind] at isText

theorem gives_bracketed_group
    {t close : Token} {e : Expr} {start : Nat}
    (isOpen : t.isSymbol "(" = true)
    (inside : Gives i expr (·.erase = e) (close :: r))
    (isClose : close.isSymbol ")" = true) :
    Gives (t :: i) (bracketed expr start) (·.erase = e) r :=
  .ifSymbol isOpen <| .bind inside fun _ he => .bind (gives_expect isClose) fun _ _ => .pure he

theorem gives_bracketed_list
    {t : Token} {es : List Expr} {start : Nat}
    (isOpen : t.isSymbol "[" = true)
    (inside : Gives i (items expr "]") (·.map erase = es) r) :
    Gives (t :: i) (bracketed expr start) (·.erase = .list blank es) r := by
  refine .ifNoSymbol (isSymbol_eq_false isOpen (by decide)) (.ifSymbol isOpen (.bind inside ?_))
  rintro es' rfl
  exact gives_node fun _ => Expr.erase_list _ _

theorem gives_bracketed_map
    {t : Token} {start : Nat} {A : Expr → Prop}
    (isOpen : t.isSymbol "\x7b" = true)
    (inside : Gives i (mapBody expr start) A r) :
    Gives (t :: i) (bracketed expr start) A r :=
  .ifNoSymbol (isSymbol_eq_false isOpen (by decide)) <|
    .ifNoSymbol (isSymbol_eq_false isOpen (by decide)) <| .ifSymbol isOpen inside

/-! ### Members -/

section Postfixes

variable {start fuel : Nat} {inner e : Expr}

theorem gives_postfixLoop_end
    (fuel : Nat)
    (follows : Follows [] i) :
    Gives i (postfixLoop expr start fuel inner) (· = inner) i := by
  cases fuel with
  | zero => exact .pure rfl
  | succ fuel =>
      exact .ifNoSymbol (follows "." (by decide)) <| .ifNoSymbol (follows "[" (by decide)) <|
        .ifNoSymbol (follows "(" (by decide)) <| .pure rfl

theorem gives_postfixLoop_field
    {dot name : Token}
    (isDot : dot.isSymbol "." = true)
    (isName : name.isIdent = true)
    (noCall : startsWith "(" i = false)
    (others : ∀ inner' : Expr, inner'.erase = .select blank inner.erase name.text →
      Gives i (postfixLoop expr start fuel inner') (·.erase = e) r) :
    Gives (dot :: name :: i) (postfixLoop expr start (fuel + 1) inner) (·.erase = e) r := by
  refine .ifSymbol isDot (.read fun s hs => ?_)
  rw [hs]
  simp only [List.head?_cons, if_pos isName]
  refine .bind gives_advance fun _ _ => .ifNoSymbol noCall (.bind gives_newMark fun mark _ => ?_)
  exact others _ rfl

theorem gives_postfixLoop_method
    {dot name paren : Token} {args : List Expr} {called : Expr}
    (isDot : dot.isSymbol "." = true)
    (isName : name.isIdent = true)
    (isOpen : paren.isSymbol "(" = true)
    (arguments : Gives i (items expr ")") (·.map erase = args) j)
    (meaning : MethodCall name.text inner.erase args called)
    (others : ∀ called' : Expr, called'.erase = called →
      Gives j (postfixLoop expr start fuel called') (·.erase = e) r) :
    Gives (dot :: name :: paren :: i) (postfixLoop expr start (fuel + 1) inner)
      (·.erase = e) r := by
  refine .ifSymbol isDot (.read fun s hs => ?_)
  rw [hs]
  simp only [List.head?_cons, if_pos isName]
  refine .bind gives_advance fun _ _ => .ifSymbol isOpen (.bind arguments ?_)
  rintro args' rfl
  exact .bind (gives_methodCall meaning) others

theorem gives_postfixLoop_index
    {bracket close : Token} {key : Expr}
    (isOpen : bracket.isSymbol "[" = true)
    (inside : Gives i expr (·.erase = key) (close :: j))
    (isClose : close.isSymbol "]" = true)
    (others : ∀ inner' : Expr, inner'.erase = .index blank inner.erase key →
      Gives j (postfixLoop expr start fuel inner') (·.erase = e) r) :
    Gives (bracket :: i) (postfixLoop expr start (fuel + 1) inner) (·.erase = e) r := by
  refine .ifNoSymbol (isSymbol_eq_false isOpen (by decide)) (.ifSymbol isOpen (.bind inside ?_))
  rintro key' rfl
  refine .bind (gives_expect isClose) fun _ _ => .bind gives_newMark fun mark _ => ?_
  exact others _ rfl

theorem gives_postfixLoop_invocation
    {paren : Token} {args : List Expr}
    (isOpen : paren.isSymbol "(" = true)
    (arguments : Gives i (items expr ")") (·.map erase = args) j)
    (others : ∀ inner' : Expr, inner'.erase = .invoke blank inner.erase args →
      Gives j (postfixLoop expr start fuel inner') (·.erase = e) r) :
    Gives (paren :: i) (postfixLoop expr start (fuel + 1) inner) (·.erase = e) r := by
  refine .ifNoSymbol (isSymbol_eq_false isOpen (by decide)) <|
    .ifNoSymbol (isSymbol_eq_false isOpen (by decide)) <| .ifSymbol isOpen <| .bind arguments ?_
  rintro args' rfl
  refine .bind gives_newMark fun mark _ => ?_
  exact others _ (Expr.erase_invoke _ _ _)

end Postfixes

theorem gives_member
    {inner e : Expr}
    (first : Gives i (primary expr) (·.erase = inner) j)
    (others : ∀ start fuel (inner' : Expr), j.length ≤ fuel → inner'.erase = inner →
      Gives j (postfixLoop expr start fuel inner') (·.erase = e) r) :
    Gives i (member expr) (·.erase = e) r := by
  refine .read fun _ _ => .bind first fun inner' hinner => .read fun s hs => ?_
  exact others _ _ inner' (by rw [hs]) hinner

/-! ### Operators in front, and conditionals -/

theorem gives_unary_member
    {signs : List Token} {ops : List UnaryOp} {e : Expr}
    (areSigns : signs.map prefixOf? = ops.map some)
    (separate : ops.getLast? = some .neg → negatable? i = none)
    (opens : OpensMember i)
    (inner : Gives i (member expr) (·.erase = e) r) :
    Gives (signs ++ i) (unary expr) (·.erase = prefixed ops e) r := by
  obtain ⟨t, after, rfl, -, noSign⟩ := opens
  refine .read fun s hs => ?_
  refine .bind (gives_takePrefixes areSigns (by simpa using noSign) (by simp [hs])) ?_
  rintro taken rfl
  rw [negatedInt?_eq]
  refine .read fun s hs => ?_
  rw [hs]
  split
  · next start outer t' k hops found =>
      have endsInMinus : (taken.map Prod.fst).getLast? = some .neg := by
        rw [← List.reverse_reverse taken, hops]
        simp
      rw [negated?_eq_none_iff.mpr (separate endsInMinus)] at found
      cases found
  · refine .bind inner ?_
    rintro e' rfl
    simpa using gives_applyPrefixes taken.reverse e'

theorem gives_unary_negative
    {signs : List Token} {ops : List UnaryOp} {minus digits : Token} {k : Nat}
    (areSigns : signs.map prefixOf? = ops.map some)
    (isMinus : prefixOf? minus = some .neg)
    (isInteger : negatable? (digits :: i) = some k)
    (inRange : InIntRange (-(k : Int))) :
    Gives (signs ++ minus :: digits :: i) (unary expr)
      (·.erase = prefixed ops (.literal blank (.int (-(k : Int))))) i := by
  have noSign : prefixOf? digits = none := by
    cases hk : digits.kind <;> simp_all [negatable?, prefixOf?]
  have areSigns : (signs ++ [minus]).map prefixOf? = (ops ++ [UnaryOp.neg]).map some := by
    simp [areSigns, isMinus]
  rw [show signs ++ minus :: digits :: i = (signs ++ [minus]) ++ digits :: i by simp]
  refine .read fun s hs => ?_
  refine .bind (gives_takePrefixes areSigns (by simpa using noSign) (by simp [hs])) ?_
  intro taken htaken
  obtain ⟨outer, minuses, rfl, houter, hminuses⟩ := List.map_eq_append_iff.mp htaken
  obtain ⟨⟨_, start⟩, rfl, rfl⟩ := List.map_eq_singleton_iff.mp hminuses
  rw [negatedInt?_eq]
  refine .read fun s hs => ?_
  rw [hs]
  simp only [negated?, isInteger, Option.map_some, List.reverse_append, List.reverse_cons,
    List.reverse_nil, List.nil_append, List.singleton_append]
  refine .bind gives_advance fun _ _ => .bind (gives_intLiteral true inRange) ?_
  intro e he
  simpa [he, houter] using gives_applyPrefixes outer.reverse e

theorem gives_conditional_plain
    {e : Expr}
    (alternatives : Gives i (chainParser expr operatorLevels) (·.erase = e) r)
    (noQuestion : startsWith "?" r = false) :
    Gives i (conditional expr) (·.erase = e) r :=
  .read fun _ _ => .bind alternatives fun _ he => .ifNoSymbol noQuestion (.pure he)

theorem gives_conditional_ternary
    {c a b : Expr} {k : List Token} {question colon : Token}
    (condition : Gives i (chainParser expr operatorLevels) (·.erase = c) (question :: j))
    (isQuestion : question.isSymbol "?" = true)
    (ifTrue : Gives j expr (·.erase = a) (colon :: k))
    (isColon : colon.isSymbol ":" = true)
    (ifFalse : Gives k expr (·.erase = b) r) :
    Gives i (conditional expr) (·.erase = .ternary blank c a b) r := by
  refine .read fun _ _ => .bind condition fun c' hc => .ifSymbol isQuestion (.bind ifTrue ?_)
  refine fun a' ha => .bind (gives_expect isColon) fun _ _ => .bind ifFalse fun b' hb => ?_
  exact gives_node fun _ => by rw [Expr.erase_ternary, hc, ha, hb]

/-! ### Derivations -/

/-- The parser of a phrase reads it where what follows is no continuation.  The loops are asked for
every bound on their rounds that the tokens allow. -/
def Accepts (limit : Int) (n : Nat) : Phrase → List Token → List Token → Prop
  | .expr e, i, r => Stops r → Gives i (exprAt limit n) (·.erase = e) r
  | .chain levels e, i, r =>
      levels <:+ operatorLevels → Follows levels r →
        Gives i (chainParser (exprAt limit n) levels) (·.erase = e) r
  | .operators level tighter left e, i, r =>
      level :: tighter <:+ operatorLevels → Follows (level :: tighter) r →
        ∀ start fuel (left' : Expr), i.length ≤ fuel → left'.erase = left →
          Gives i (operatorLoop level (chainParser (exprAt limit n) tighter) start fuel left')
            (·.erase = e) r
  | .unary e, i, r => Follows [] r → Gives i (unary (exprAt limit n)) (·.erase = e) r
  | .member e, i, r => Follows [] r → Gives i (member (exprAt limit n)) (·.erase = e) r
  | .postfixes inner e, i, r =>
      Follows [] r → ∀ start fuel (inner' : Expr), i.length ≤ fuel → inner'.erase = inner →
        Gives i (postfixLoop (exprAt limit n) start fuel inner') (·.erase = e) r
  | .primary e, i, r => Gives i (primary (exprAt limit n)) (·.erase = e) r
  | .items close es, i, r =>
      close ∈ closers → ∃ t, t.isSymbol close = true ∧ ∀ fuel, i.length ≤ fuel →
        Gives i (itemLoop (exprAt limit n) close fuel) (·.map erase = es) (t :: r)
  | .entries kvs, i, r =>
      ∃ t, t.isSymbol "\x7d" = true ∧ ∀ fuel, i.length ≤ fuel →
        Gives i (entryLoop (exprAt limit n) fuel) (eraseEntries · = kvs) (t :: r)

/-- What the derivation says of items is what the parser of items does. -/
theorem Accepts.items
    {limit : Int} {close : String} {es : List Expr}
    (h : Accepts limit n (.items close es) i r)
    (known : close ∈ closers) :
    Gives i (Parser.items (exprAt limit n) close) (·.map erase = es) r := by
  obtain ⟨t, isClose, inside⟩ := h known
  exact gives_items isClose inside

theorem accepts_of_derives
    {limit : Int} {p : Phrase}
    (h : Derives n p i r) :
    Accepts limit n p i r := by
  induction h with
  | plain _ ih =>
      intro stops
      exact gives_conditional_plain (ih List.suffix_rfl stops.1) stops.2
  | ternary _ isQuestion _ isColon _ ihc iha ihb =>
      intro stops
      refine gives_conditional_ternary (ihc List.suffix_rfl ?_) isQuestion (iha ?_) isColon
        (ihb stops)
      · exact follows_of_isSymbol isQuestion (by decide)
      · exact stops_of_isSymbol isColon (by decide)
  | operand _ ih =>
      intro _ follows
      exact ih follows
  | chain _ others ihFirst ihOthers =>
      intro levels follows
      refine gives_leftAssoc (ihFirst ?_ ?_) (ihOthers levels follows)
      · exact (List.suffix_cons _ _).trans levels
      · exact others.follows_operators levels follows
  | operatorsEnd =>
      intro _ follows start fuel left' _ hleft
      refine (gives_operatorLoop_end follows fuel).mono ?_
      rintro _ rfl
      exact hleft
  | operator ofLevel isOperator next others ihNext ihOthers =>
      intro levels follows start fuel left' enough hleft
      have known := levels.subset (List.mem_cons_self ..)
      have tighter := (List.suffix_cons _ _).trans levels
      have shorter := next.length_le
      cases fuel with
      | zero => simp at enough
      | succ fuel =>
          refine gives_operatorLoop known ofLevel isOperator
            (ihNext tighter (others.follows_operators levels follows)) fun left'' hleft'' => ?_
          rw [hleft] at hleft''
          refine ihOthers levels follows start fuel left'' ?_ hleft''
          rw [List.length_cons] at enough
          omega
  | prefixed areSigns separate inner ih =>
      intro follows
      exact gives_unary_member areSigns separate inner.beginsWell (ih follows)
  | negative areSigns isMinus isInteger inRange =>
      intro _
      exact gives_unary_negative areSigns isMinus isInteger inRange
  | member _ _ ihFirst ihOthers =>
      intro follows
      exact gives_member ihFirst (ihOthers follows)
  | postfixesEnd =>
      intro follows start fuel inner' _ hinner
      refine (gives_postfixLoop_end fuel follows).mono ?_
      rintro _ rfl
      exact hinner
  | field isDot isName noCall _ ih =>
      intro follows start fuel inner' enough hinner
      cases fuel with
      | zero => simp at enough
      | succ fuel =>
          refine gives_postfixLoop_field isDot isName noCall fun inner'' hinner'' => ?_
          rw [hinner] at hinner''
          simp only [List.length_cons] at enough
          exact ih follows start fuel inner'' (by omega) hinner''
  | method isDot isName isOpen arguments meaning _ ihArguments ih =>
      intro follows start fuel inner' enough hinner
      have shorter := arguments.length_le
      cases fuel with
      | zero => simp at enough
      | succ fuel =>
          rw [← hinner] at meaning
          simp only [List.length_cons] at enough
          exact gives_postfixLoop_method isDot isName isOpen (ihArguments.items (by decide)) meaning
            fun called' hcalled => ih follows start fuel called' (by omega) hcalled
  | index isOpen inside isClose _ ihInside ih =>
      intro follows start fuel inner' enough hinner
      have shorter := inside.length_le
      cases fuel with
      | zero => simp at enough
      | succ fuel =>
          simp only [List.length_cons] at enough shorter
          refine gives_postfixLoop_index isOpen
            (ihInside (stops_of_isSymbol isClose (by decide))) isClose fun inner'' hinner'' => ?_
          rw [hinner] at hinner''
          exact ih follows start fuel inner'' (by omega) hinner''
  | invocation isOpen arguments _ ihArguments ih =>
      intro follows start fuel inner' enough hinner
      have shorter := arguments.length_le
      cases fuel with
      | zero => simp at enough
      | succ fuel =>
          simp only [List.length_cons] at enough
          refine gives_postfixLoop_invocation isOpen (ihArguments.items (by decide))
            fun inner'' hinner'' => ?_
          rw [hinner] at hinner''
          exact ih follows start fuel inner'' (by omega) hinner''
  | literal value => exact gives_primary_literal value
  | name isName unreserved noCall =>
      exact gives_primary_ident isName (gives_identifier_name unreserved noCall)
  | call isName unreserved isOpen _ meaning ih =>
      exact gives_primary_ident isName
        (gives_identifier_call unreserved isOpen (ih.items (by decide)) meaning)
  | group isOpen _ isClose ih =>
      exact gives_primary_bracketed isOpen fun _ =>
        gives_bracketed_group isOpen (ih (stops_of_isSymbol isClose (by decide))) isClose
  | list isOpen _ ih =>
      exact gives_primary_bracketed isOpen fun _ =>
        gives_bracketed_list isOpen (ih.items (by decide))
  | map isOpen _ ih =>
      obtain ⟨t, isClose, inside⟩ := ih
      exact gives_primary_bracketed isOpen fun _ =>
        gives_bracketed_map isOpen (gives_mapBody isClose inside)
  | itemsEnd isClose =>
      intro _
      refine ⟨_, isClose, fun fuel enough => ?_⟩
      cases fuel with
      | zero => simp at enough
      | succ fuel => exact (gives_itemLoop_end isClose).mono fun es hes => by rw [hes]; rfl
  | lastItem inside isClose ih =>
      intro known
      refine ⟨_, isClose, fun fuel enough => ?_⟩
      have shorter := inside.length_le
      cases fuel with
      | zero =>
          rw [List.length_cons] at shorter
          omega
      | succ fuel =>
          refine gives_itemLoop known inside.beginsWell ?_
          have ends : _ ∈ enders := List.mem_append_left _ known
          refine .bind (ih (stops_of_isSymbol isClose ends)) fun e he => ?_
          have noComma : ∀ close ∈ closers, "," ≠ close := by decide
          exact .ifNoSymbol (isSymbol_eq_false isClose (noComma _ known)) (.pure (by simp [he]))
  | item first isComma _ ihFirst ihOthers =>
      intro known
      obtain ⟨t, isClose, others⟩ := ihOthers known
      refine ⟨t, isClose, fun fuel enough => ?_⟩
      have shorter := first.length_le
      rw [List.length_cons] at shorter
      cases fuel with
      | zero => omega
      | succ fuel =>
          refine gives_itemLoop known first.beginsWell ?_
          refine .bind (ihFirst (stops_of_isSymbol isComma (by decide))) fun e he => ?_
          refine .ifSymbol isComma (.bind (others fuel (by omega)) fun es hes => .pure ?_)
          simp [he, hes]
  | entriesEnd isClose =>
      refine ⟨_, isClose, fun fuel enough => ?_⟩
      cases fuel with
      | zero => simp at enough
      | succ fuel => exact (gives_entryLoop_end isClose).mono fun kvs hkvs => by rw [hkvs]; rfl
  | lastEntry key isColon value isClose ihKey ihValue =>
      refine ⟨_, isClose, fun fuel enough => ?_⟩
      have shorter := key.length_le
      rw [List.length_cons] at shorter
      cases fuel with
      | zero => omega
      | succ fuel =>
          refine gives_entryLoop key.beginsWell (ihKey (stops_of_isSymbol isColon (by decide)))
            isColon fun k hk => ?_
          refine .bind (ihValue (stops_of_isSymbol isClose (by decide))) fun v hv => ?_
          exact .ifNoSymbol (isSymbol_eq_false isClose (by decide))
            (.pure (by simp [eraseEntries, hk, hv]))
  | entry key isColon value isComma _ ihKey ihValue ihOthers =>
      obtain ⟨t, isClose, others⟩ := ihOthers
      refine ⟨t, isClose, fun fuel enough => ?_⟩
      have shorter := key.length_le
      have shorter' := value.length_le
      rw [List.length_cons] at shorter shorter'
      cases fuel with
      | zero => omega
      | succ fuel =>
          refine gives_entryLoop key.beginsWell (ihKey (stops_of_isSymbol isColon (by decide)))
            isColon fun k hk => ?_
          refine .bind (ihValue (stops_of_isSymbol isComma (by decide))) fun v hv => ?_
          refine .ifSymbol isComma (.bind (others fuel (by omega)) fun kvs hkvs => .pure ?_)
          simp [eraseEntries, hk, hv, ← hkvs]

end Parser
end ExprLang
