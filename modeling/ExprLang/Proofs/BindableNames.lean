import ExprLang.Proofs.SourceTrees
import ExprLang.Proofs.TimeTexts

/-!
# Names that can be bound

What a name may be is decided in three places: where a variable is bound, where a word is scanned,
and where the parser meets an identifier.  The three agree, so that every variable can be referred to
and every name that an expression can refer to can be bound.

* `checkName_iff_isName`: what can be bound is an unreserved identifier that is no keyword.
* `isSingleName_of_isName`: such a text is scanned as one token.
* `refersToItself_of_isSingleName`: a text that is one unreserved name is a reference.
* `isName_of_refersToItself`: only such names are referred to.
* `binds_iff_refers`: the three agree, and a reference comes to the value that was bound.
-/

namespace ExprLang

open Grammar

variable {name : String}

/-! ### Names that are checked -/

/-- What may stand as a name is not taken for a word of the language. -/
theorem Grammar.IsField.ne_keyword
    (isField : IsField name)
    {word : String}
    (keyword : word ∈ valueKeywords ∨ word = "in") :
    name ≠ word := by
  rintro rfl
  have isIdent := isField.kind
  simp only [valueKeywords, List.mem_cons, List.not_mem_nil, or_false] at keyword
  rcases keyword with (rfl | rfl | rfl) | rfl <;> simp [Lexer.wordKind] at isIdent

theorem checkName_of_isName
    (isName : IsName name) :
    checkName name = .ok () := by
  have noValue : name ∉ valueKeywords := fun member => isName.ne_keyword (.inl member) rfl
  have noOperator : name ≠ "in" := isName.ne_keyword (.inr rfl)
  simp [checkName, isName.identifier, isName.unreserved, noValue, noOperator]

/-- A name passes the check where it is one that an expression may stand for. -/
theorem checkName_iff_isName :
    checkName name = .ok () ↔ IsName name :=
  ⟨fun valid => isName_of_checkName (by rw [valid]; rfl), checkName_of_isName⟩

/-- In a scope without bindings every name that passes the check can be bound. -/
theorem addVariable_empty_iff
    {object : HostObject} {v : Value}
    (value : object.toValue = .ok v)
    (scope : Scope) :
    Scope.empty.addVariable name object = .ok scope ↔ IsName name ∧ scope = ⟨[(name, v)], []⟩ := by
  rw [← checkName_iff_isName]
  cases check : checkName name with
  | error e =>
      refine iff_of_false (fun bound => ?_) (by simp)
      rw [Scope.addVariable, check] at bound
      cases bound
  | ok _ =>
      simp [Scope.addVariable, check, value, Scope.valueOf?, Scope.empty, eq_comm]

/-! ### Names that are scanned -/

/-- Whether a text is scanned as one identifier without a mistake, and the word is not reserved. -/
def IsSingleName (name : String) : Prop :=
  tokenize name.toList =
      ([⟨.ident, name, ⟨0, name.toList.length⟩⟩, .endOfInput name.toList.length], []) ∧
    name ∉ reservedWords

/-- All of a name is scanned as one token. -/
theorem isSingleName_of_isName
    (isName : IsName name) :
    IsSingleName name := by
  refine ⟨?_, isName.unreserved⟩
  have ends : Lexer.EndsWord [] := fun _ member => by cases member
  have scanned := isName.toIsField.scanFrom ends 0
  rw [List.append_nil] at scanned
  simp [tokenize, Lexer.scan, scanned, Lexer.Scan.cons, Lexer.scanFrom]

/-! ### Names that are parsed -/

/-- Whether a text compiles to a reference to the variable that it names. -/
def RefersToItself (name : String) : Prop :=
  ∃ p m, Program.compile .standard name.toList = .ok p ∧ p.root = .ident m name

/-- Only an expression that is one name is the same as that name but for its mark. -/
theorem Expr.eq_ident_of_erase
    {e : Expr}
    (same : e.erase = .ident Expr.blank name) :
    ∃ m, e = .ident m name := by
  cases e <;> cases same
  exact ⟨_, rfl⟩

/-- One token that is an unreserved name is a reference. -/
theorem refersToItself_of_isSingleName
    (single : IsSingleName name) :
    RefersToItself name := by
  obtain ⟨scanned, unreserved⟩ := single
  obtain ⟨tokens, problems⟩ := Prod.mk.inj scanned
  have isToken : (Lexer.scan name.toList).tokens = [⟨.ident, name, ⟨0, name.toList.length⟩⟩] :=
    (List.append_left_inj [_]).mp tokens
  have lexed : (Lexer.scan name.toList).errors = [] := List.map_eq_nil_iff.mp problems
  have derived : Derives (Parser.budget 64) (.expr (.ident Expr.blank name))
      (Lexer.scan name.toList).tokens [] := by
    rw [isToken]
    exact expr_of_primary (.name (t := ⟨.ident, name, _⟩) rfl unreserved rfl)
  obtain ⟨e, parsed, same⟩ := (parse_eq_ok_iff lexed _).mpr derived
  obtain ⟨m, rfl⟩ := Expr.eq_ident_of_erase same
  exact ⟨⟨name.toList, _, .standard⟩, m, compile_eq_ok_iff.mpr ⟨parsed, rfl, rfl⟩, rfl⟩

/-- What is referred to is an unreserved identifier, as every node is read from lawful tokens. -/
theorem isName_of_refersToItself
    (refers : RefersToItself name) :
    IsName name := by
  obtain ⟨p, m, compiled, root⟩ := refers
  have fromSource := fromSource_of_parse (compile_eq_ok_iff.mp compiled).1
  rw [root] at fromSource
  exact fromSource.root

/-! ### References to what was bound -/

/-- A reference comes to the value of its variable. -/
theorem execute_ident
    {p : Program} {m : Mark} {context : Context} {v : Value}
    (root : p.root = .ident m name)
    (bound : context.valueOf? name = some v) :
    (p.execute context).result = .ok v := by
  have yields : Eval.Yields
      (Eval.evalAt ⟨context, p.config.debug⟩ Program.evaluationDepth p.root) (.ok v) := by
    rw [root]
    exact Eval.yields_ident bound m
  have evaluated := execute_of_yields yields
  cases result : (p.execute context).result with
  | error e =>
      rw [result] at evaluated
      cases evaluated
  | ok w =>
      rw [result] at evaluated
      cases evaluated
      rfl

/-- A text can be bound to the value of an object in an empty context if and only if it compiles to a
reference to itself, and this if and only if it is scanned as one identifier that is not reserved.
Where it is bound, it compiles, and every program that it compiles to comes to the value. -/
theorem binds_iff_refers
    (name : String)
    {object : HostObject} {v : Value}
    (convertible : object.toValue = .ok v) :
    ((∃ scope, Scope.empty.addVariable name object = .ok scope) ↔ RefersToItself name) ∧
    (RefersToItself name ↔ IsSingleName name) ∧
    ∀ scope, Scope.empty.addVariable name object = .ok scope →
      ∃ p, Program.compile .standard name.toList = .ok p ∧ (p.execute [scope]).result = .ok v := by
  have binds_iff : (∃ scope, Scope.empty.addVariable name object = .ok scope) ↔ IsName name := by
    simp [addVariable_empty_iff convertible]
  have refers_of_isName (isName : IsName name) : RefersToItself name :=
    refersToItself_of_isSingleName (isSingleName_of_isName isName)
  refine ⟨?_, ?_, ?_⟩
  · rw [binds_iff]
    exact ⟨refers_of_isName, isName_of_refersToItself⟩
  · exact ⟨fun refers => isSingleName_of_isName (isName_of_refersToItself refers),
      refersToItself_of_isSingleName⟩
  · intro scope bound
    obtain ⟨isName, rfl⟩ := (addVariable_empty_iff convertible scope).mp bound
    obtain ⟨p, m, compiled, root⟩ := refers_of_isName isName
    exact ⟨p, compiled, execute_ident root (by simp [Context.valueOf?, Scope.valueOf?])⟩

/-- The letters that may stand before a quote are a name, and a list can be bound to it. -/
theorem binds_iff_refers_prefix :
    let object := HostObject.list [.int 1, .text "b"]
    let v := Value.list [.int 1, .string "b"]
    object.toValue = .ok v ∧
      ∃ scope, Scope.empty.addVariable "rb" object = .ok scope ∧ RefersToItself "rb" ∧
        IsSingleName "rb" ∧
        ∃ p, Program.compile .standard "rb".toList = .ok p ∧
          (p.execute [scope]).result = .ok v := by
  intro object v
  have convertible : object.toValue = .ok v := rfl
  obtain ⟨binds_iff, refers_iff, comes⟩ := binds_iff_refers "rb" convertible
  have bound : Scope.empty.addVariable "rb" object = .ok ⟨[("rb", v)], []⟩ := rfl
  have refers := binds_iff.mp ⟨_, bound⟩
  exact ⟨convertible, _, bound, refers, refers_iff.mp refers, comes _ bound⟩

end ExprLang
