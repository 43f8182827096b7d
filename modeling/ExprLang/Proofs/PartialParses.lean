import ExprLang.Proofs.PartialInput

/-!
# Expressions in a part of the input

Each part of the parser reads the first tokens of its input as it reads these tokens alone, if it
takes no more than them.

* `tracks_primary`, `tracks_postfixRound`, `tracks_operatorRound`: the parts of members and chains.
* `tracks_unary`: operators in front of an operand, by induction on their number.
* `tracks_exprAt`: expressions, by induction on how deeply they nest.
-/

namespace ExprLang
namespace Expr

variable {k d : Nat}

/-! ### Nodes that stand elsewhere -/

theorem moved_list
    (m : Mark) (es : List Expr) :
    (list m es).moved k d = list (m.moved k d) (es.map (moved k d)) :=
  congrArg _ (mapMarkItems_eq_map _ es)

theorem moved_map
    (m : Mark) (entries : List (Expr × Expr)) :
    (map m entries).moved k d =
      map (m.moved k d) (entries.map fun (key, v) => (key.moved k d, v.moved k d)) :=
  congrArg _ (mapMarkEntries_eq_map _ entries)

theorem moved_call
    (m : Mark) (function : String) (target : Option Expr) (args : List Expr) :
    (call m function target args).moved k d =
      call (m.moved k d) function (target.map (moved k d)) (args.map (moved k d)) :=
  congrArg₂ _ (mapMarkOption_eq_map _ target) (mapMarkItems_eq_map _ args)

theorem moved_invoke
    (m : Mark) (callee : Expr) (args : List Expr) :
    (invoke m callee args).moved k d =
      invoke (m.moved k d) (callee.moved k d) (args.map (moved k d)) :=
  congrArg _ (mapMarkItems_eq_map _ args)

theorem moved_comprehension
    (m : Mark) (kind : Comprehension) (target : Expr) (names : List String) (guard : Option Expr)
    (body : Expr) :
    (comprehension m kind target names guard body).moved k d =
      comprehension (m.moved k d) kind (target.moved k d) names (guard.map (moved k d))
        (body.moved k d) :=
  congrArg (comprehension _ kind _ names · _) (mapMarkOption_eq_map _ guard)

theorem moved_bindLocals
    (names : List String) (e : Expr) :
    (e.bindLocals names).moved k d = (e.moved k d).bindLocals names :=
  mapMark_bindLocals _ names e

end Expr

namespace Parser

open Grammar (startsWith postfixOpeners negatable?)

variable {α α' : Type} {post : List Token} {k d : Nat}

/-! ### Literals and calls -/

theorem tracks_intLiteral
    (t t' : Token) (n start : Nat) (negative : Bool) :
    Tracks post k d (intLiteral t n (start + d) negative) (intLiteral t' n start negative)
      (Expr.moved k d) :=
  .ite (tracks_node fun _ => rfl) .ofFaulty

theorem tracks_uintLiteral
    (t t' : Token) (n start : Nat) :
    Tracks post k d (uintLiteral t n (start + d)) (uintLiteral t' n start) (Expr.moved k d) :=
  .ite (tracks_node fun _ => rfl) .ofFaulty

theorem tracks_variableNames
    (macroName : String) (names : List String) (binders : List Expr) :
    Tracks post k d (variableNames macroName names (binders.map (Expr.moved k d)))
      (variableNames macroName names binders) fun names => names := by
  induction binders generalizing names with
  | nil => exact .pure rfl
  | cons e rest ih =>
      unfold variableNames
      rw [List.map_cons]
      dsimp only
      rw [show (e.moved k d).identName? = e.identName? from Expr.identName?_mapMark _ e]
      split
      · exact .ofFaulty
      · exact .ite .ofFaulty (ih _)

theorem tracks_comprehension
    (start : Nat) (macroName : String) (kind : Comprehension) (target : Expr)
    (binders : List Expr) (guard : Option Expr) (body : Expr) :
    Tracks post k d
      (comprehension (start + d) macroName kind (target.moved k d)
        (binders.map (Expr.moved k d)) (guard.map (Expr.moved k d)) (body.moved k d))
      (comprehension start macroName kind target binders guard body) (Expr.moved k d) := by
  refine .bind (tracks_variableNames macroName [] binders) fun names => tracks_node fun m => ?_
  rw [Expr.moved_comprehension, Expr.moved_bindLocals, Expr.bindOption_eq_map,
    Expr.bindOption_eq_map, Option.map_map, Option.map_map]
  congr 2
  funext g
  exact (Expr.moved_bindLocals names g).symm

theorem tracks_call
    (start : Nat) (name : String) (target : Option Expr) (args : List Expr) :
    Tracks post k d
      (do
        let mark ← newMark (start + d)
        return .call mark name (target.map (Expr.moved k d)) (args.map (Expr.moved k d)))
      (do return .call (← newMark start) name target args) (Expr.moved k d) :=
  tracks_node fun m => (Expr.moved_call m name target args).symm

theorem tracks_methodCall
    (start : Nat) (name : String) (target : Expr) (args : List Expr) :
    Tracks post k d (methodCall (start + d) name (target.moved k d) (args.map (Expr.moved k d)))
      (methodCall start name target args) (Expr.moved k d) := by
  unfold methodCall
  cases Comprehension.ofName? name with
  | none => exact tracks_call start name (some target) args
  | some kind =>
      match args with
      | [x, body] => exact tracks_comprehension start name kind target [x] none body
      | [x, y, body] =>
          have sameName : (y.moved k d).identName? = y.identName? := Expr.identName?_mapMark _ y
          change Tracks post k d (if (y.moved k d).identName?.isSome then _ else _) _ _
          rw [sameName]
          refine .ite (tracks_comprehension start name kind target [x, y] none body) ?_
          by_cases isMap : kind = .map
          · simp only [isMap, ne_eq, not_true_eq_false, if_false]
            exact tracks_comprehension start name .map target [x] (some y) body
          · rw [if_pos isMap]
            exact .ofFaulty
      | [] | [_] | _ :: _ :: _ :: _ :: _ => exact tracks_call start name (some target) _

theorem tracks_functionCall
    (start : Nat) (name : String) (nameSpan nameSpan' : Text.Span) (args : List Expr) :
    Tracks post k d (functionCall (start + d) name nameSpan (args.map (Expr.moved k d)))
      (functionCall start name nameSpan' args) (Expr.moved k d) := by
  refine .ite ?_ (tracks_call start name none args)
  unfold presenceTest
  match args with
  | [access] =>
      have sameForm : (access.moved k d).isAccess = access.isAccess := Expr.isAccess_mapMark _ access
      change Tracks post k d (if (access.moved k d).isAccess then _ else _) _ _
      rw [sameForm]
      exact .ite (tracks_node fun _ => rfl) .ofFaulty
  | [] | _ :: _ :: _ =>
      exact .ofFaulty (m := do
        record .invalidPresenceTest nameSpan
        placeholder (start + d))

/-! ### Items and entries -/

/-- A choice by whether items end here. -/
theorem Tracks.ifItemsEnd
    {close : String} {m₁ m₂ : Parser α} {m₁' m₂' : Parser α'} {g : α' → α}
    [strict : Strict m₂]
    (h₁ : Tracks post k d m₁ m₁' g)
    (h₂ : Tracks post k d m₂ m₂' g) :
    Tracks post k d (do if (← atSymbol close) || (← atEnd) then m₁ else m₂)
      (do if (← atSymbol close) || (← atEnd) then m₁' else m₂') g := by
  intro s s' aligned clean enough
  rw [ifItemsEnd_apply] at clean enough ⊢
  rw [ifItemsEnd_apply]
  cases rest : s'.rest with
  | nil =>
      -- behind the part nothing is taken
      rw [List.isEmpty_nil, Bool.or_true, if_pos rfl]
      split at clean
      · next ends =>
          rw [if_pos ends] at enough ⊢
          exact h₁ s s' aligned clean enough
      · next more =>
          rw [if_neg more] at enough
          have less := strict.length_lt s clean
          rw [aligned.nil rest] at less
          exact absurd enough (Nat.not_le_of_gt less)
  | cons t after =>
      rw [aligned.cons rest, startsWith_moved, List.isEmpty_cons] at clean enough ⊢
      rw [List.isEmpty_cons]
      split
      · next ends =>
          rw [if_pos ends] at clean enough
          exact h₁ s s' aligned clean enough
      · next more =>
          rw [if_neg more] at clean enough
          exact h₂ s s' aligned clean enough

section Nested

variable {expr expr' : Parser Expr} [Onward expr] [Strict expr] [Onward expr'] [Strict expr']
  (h : Tracks post k d expr expr' (Expr.moved k d))

include h

omit [Onward expr] [Onward expr'] [Strict expr'] in
theorem tracks_itemRound
    (close : String) (before : List Expr) :
    Tracks post k d (itemRound expr close (before.map (Expr.moved k d)))
      (itemRound expr' close before) (Step.map (List.map (Expr.moved k d))) := by
  refine .ifItemsEnd (.pure rfl) (.bind h fun e => .ifSymbol (.pure ?_) (.pure ?_)) <;>
    simp [Step.map]

theorem tracks_items
    (close : String) :
    Tracks post k d (items expr close) (items expr' close) (List.map (Expr.moved k d)) := by
  intro s s' aligned
  rw [items_eq, items_eq]
  have loop := tracksFrom_iterate (tracks_itemRound h close) (x := []) aligned (Nat.le_refl _)
    (.inl (Nat.le_refl _))
  exact .atRemaining <| loop.bind fun _ aligned' =>
    (tracks_expect close _ _ aligned').bind fun _ aligned'' => (Tracks.pure rfl) _ _ aligned''

omit [Onward expr'] [Strict expr'] in
theorem tracks_entryRound
    (before : List (Expr × Expr)) :
    Tracks post k d
      (entryRound expr (before.map fun (key, v) => (key.moved k d, v.moved k d)))
      (entryRound expr' before)
      (Step.map (List.map fun (key, v) => (key.moved k d, v.moved k d))) := by
  refine .ifItemsEnd (.pure rfl) (.bind h fun key => .bind (tracks_expect ":") fun colon => ?_)
  refine .ite (.bind h fun v => .ifSymbol (.pure ?_) (.pure ?_)) (.pure rfl) <;>
    simp [Step.map]

theorem tracks_mapBody
    (start : Nat) :
    Tracks post k d (mapBody expr (start + d)) (mapBody expr' start) (Expr.moved k d) := by
  intro s s' aligned
  rw [mapBody_eq, mapBody_eq]
  have loop := tracksFrom_iterate (tracks_entryRound h) (x := []) aligned (Nat.le_refl _)
    (.inl (Nat.le_refl _))
  exact .atRemaining <| loop.bind fun _ aligned' => (tracks_expect _ _ _ aligned').bind
    fun _ aligned'' => tracks_node (fun m => (Expr.moved_map m _).symm) _ _ aligned''

/-! ### The levels of the grammar -/

theorem tracks_identifier
    (t : Token) :
    Tracks post k d (identifier expr (t.moved d)) (identifier expr' t) (Expr.moved k d) := by
  unfold identifier
  refine .ite .ofFaulty (.ifSymbol ?_ (tracks_node fun _ => rfl))
  exact .bind (tracks_items h ")") fun args => tracks_functionCall _ _ _ _ args

theorem tracks_bracketed
    (start : Nat) :
    Tracks post k d (bracketed expr (start + d)) (bracketed expr' start) (Expr.moved k d) := by
  refine .ifSymbol ?_ (.ifSymbol ?_ (.ifSymbol (tracks_mapBody h start) .ofFaulty))
  · exact .bind h fun e => .bind (tracks_expect ")") fun _ => .pure rfl
  · exact .bind (tracks_items h "]") fun es => tracks_node fun m => (Expr.moved_list m es).symm

theorem tracks_primary
    [Strict (primary expr)] :
    Tracks post k d (primary expr) (primary expr') (Expr.moved k d) := by
  refine fun s s' aligned => .ofStrict aligned fun t after rest => ?_
  refine .atNextSpan aligned rest <| .atPeek aligned rest ?_
  have value (v : Value) :
      Tracks post k d (do return .literal (← newMark (t.span.start + d)) v)
        (do return .literal (← newMark t.span.start) v) (Expr.moved k d) :=
    tracks_node fun _ => rfl
  have sameKind : (t.moved d).kind = t.kind := rfl
  dsimp only
  rw [sameKind]
  cases t.kind with
  | int n => exact .afterAdvance aligned rest (tracks_intLiteral _ _ n _ false)
  | uint n => exact .afterAdvance aligned rest (tracks_uintLiteral _ _ n _)
  | float | string | bytes | bool | null => exact .afterAdvance aligned rest (value _)
  | ident => exact .afterAdvance aligned rest (tracks_identifier h t)
  | operator | punctuation | endOfInput => exact tracks_bracketed h _ s s' aligned

/-! ### Members and chains -/

theorem tracks_fieldRound
    (start : Nat) (e : Expr) :
    Tracks post k d (fieldRound expr (start + d) (e.moved k d)) (fieldRound expr' start e)
      (Step.map (Expr.moved k d)) := by
  refine fun s s' aligned => .ofStrict aligned fun t after rest => .atPeek aligned rest ?_
  have sameForm : (t.moved d).isIdent = t.isIdent := rfl
  dsimp only
  rw [sameForm]
  split
  · refine .afterAdvance aligned rest (.ifSymbol ?_ ?_)
    · exact .bind (tracks_items h ")") fun args => .bind (tracks_methodCall _ _ e args) fun _ =>
        .pure rfl
    · exact .bind (tracks_newMark start) fun _ => .pure rfl
  · exact Tracks.ofFaulty s s' aligned

theorem tracks_postfixRound
    (start : Nat) (e : Expr) :
    Tracks post k d (postfixRound expr (start + d) (e.moved k d)) (postfixRound expr' start e)
      (Step.map (Expr.moved k d)) := by
  refine .ifSymbol (tracks_fieldRound h start e) (.ifSymbol ?_ (.ifSymbol ?_ (.pure rfl)))
  · exact .bind h fun key => .bind (tracks_expect "]") fun _ => .bind (tracks_newMark start)
      fun _ => .pure rfl
  · refine .bind (tracks_items h ")") fun args => .bind (tracks_newMark start) fun m => .pure ?_
    exact congrArg Step.go (Expr.moved_invoke m e args).symm

theorem tracks_member
    [Strict (primary expr)] :
    Tracks post k d (member expr) (member expr') (Expr.moved k d) := by
  intro s s' aligned
  exact .congr (member_apply expr s) (member_apply expr' s') <|
    tracksFrom_chained (tracks_primary h) (tracks_postfixRound h) aligned (Nat.le_refl _)
      (.inl (Nat.le_refl _))

omit h in
theorem tracks_takeOperator?
    (level : Level) :
    Tracks post k d (takeOperator? level) (takeOperator? level) fun op? => op? := by
  intro s s' aligned clean enough
  rw [takeOperator?_apply] at clean enough ⊢
  rw [takeOperator?_apply]
  cases rest : s'.rest with
  | nil =>
      -- behind the part no operator is taken
      cases found : operatorAt? level s.rest with
      | none => exact ⟨rfl, aligned⟩
      | some op =>
          rw [found] at enough
          have taken := length_advance_of_operatorAt? found
          rw [aligned.nil rest] at taken
          exact absurd enough (Nat.not_le_of_gt taken)
  | cons t after =>
      have sameOperator : operatorAt? level s.rest = operatorAt? level (t :: after) := by
        rw [aligned.cons rest]
        rfl
      rw [sameOperator]
      cases operatorAt? level (t :: after) with
      | none => exact ⟨rfl, aligned⟩
      | some op => exact ⟨rfl, aligned.advance rest⟩

omit [Strict expr] [Onward expr'] [Strict expr'] in
theorem tracks_operatorRound
    (level : Level) (start : Nat) (left : Expr) :
    Tracks post k d (operatorRound level expr (start + d) (left.moved k d))
      (operatorRound level expr' start left) (Step.map (Expr.moved k d)) := by
  refine .bind (o := fun op? => by cases op? <;> infer_instance) (tracks_takeOperator? level)
    fun op? => ?_
  cases op? with
  | none => exact .pure rfl
  | some op => exact .bind h fun right => .bind (tracks_newMark start) fun _ => .pure rfl

omit [Strict expr'] in
theorem tracks_leftAssoc
    (level : Level) :
    Tracks post k d (leftAssoc level expr) (leftAssoc level expr') (Expr.moved k d) := by
  intro s s' aligned
  exact .congr (leftAssoc_apply level expr s) (leftAssoc_apply level expr' s') <|
    tracksFrom_chained h (tracks_operatorRound h level) aligned (Nat.le_refl _)
      (.inl (Nat.le_refl _))

/-! ### Operators in front of an operand -/

section Signs

variable {s s' : State} {t u : Token} {i : List Token} {n : Nat} {op : UnaryOp}

omit [Strict expr] [Onward expr'] [Strict expr'] h in
/-- A member that begins with an integer goes on with what follows it. -/
theorem length_member_of_int
    (rest : s.rest = u :: i)
    (isInt : u.kind = .int n)
    (goesOn : ∃ text ∈ postfixOpeners, startsWith text i = true)
    (clean : (member expr s).2.Clean) :
    (member expr s).2.rest.length < i.length := by
  have isLiteral : primary expr s = intLiteral u n u.span.start false (advance s).2 := by
    rw [primary, bind_apply, nextSpan_cons rest, bind_apply, peek_cons rest]
    dsimp only
    rw [isInt]
    rfl
  rw [member_apply, chained, bind_apply, nextSpan_cons rest, bind_apply] at clean ⊢
  have between := (Onward.onward _ clean).1
  have left : (primary expr s).2.rest = i := by
    rw [isLiteral] at between ⊢
    exact (sound_intLiteral u n _ false i _ (by rw [advance_cons rest]) between).2.2
  obtain ⟨text, opens, starts⟩ := goesOn
  rw [← left] at starts ⊢
  cases rounds : (primary expr s).2.rest.length with
  | zero => simp [List.eq_nil_of_length_eq_zero rounds, startsWith] at starts
  | succ rounds =>
      rw [rounds] at clean
      obtain ⟨first, others⟩ := first_of_iterate clean
      exact Nat.lt_of_le_of_lt others.length_le
        (rounds ▸ length_postfixRound opens starts first)

omit [Onward expr] [Strict expr] [Onward expr'] [Strict expr'] h in
/-- An operand takes at least one token behind its sign. -/
theorem length_unary_of_sign
    [Strict (unary expr)]
    (rest : s.rest = t :: i)
    (isSign : prefixOf? t = some op)
    (clean : (unary expr s).2.Clean) :
    (unary expr s).2.rest.length < i.length := by
  have rest' : (advance s).2.rest = i := by rw [advance_cons rest]
  by_cases folded : op = .neg ∧ (negated? i).isSome
  · obtain ⟨rfl, isSome⟩ := folded
    obtain ⟨⟨u, n⟩, found⟩ := Option.isSome_iff_exists.mp isSome
    obtain ⟨after, -, isNext⟩ := negated?_eq_some found
    rw [unary_of_negated rest isSign found, bind_apply, advance_cons (rest'.trans isNext)] at clean ⊢
    rw [isNext]
    exact Nat.lt_succ_of_le (Onward.onward _ clean).2.length_le
  · have apart : op = .neg → negated? i = none := by simpa using folded
    rw [unary_of_sign rest isSign apart] at clean ⊢
    have less := Strict.length_lt _ clean
    rwa [rest'] at less

omit [Strict expr] [Onward expr'] [Strict expr'] h in
/-- As `length_unary_of_sign`, where a minus sign does not belong to the integer behind it. -/
theorem length_unary_of_int
    (rest : s.rest = t :: u :: i)
    (isMinus : prefixOf? t = some .neg)
    (isInt : u.kind = .int n)
    (goesOn : (startsWith "." i || startsWith "[" i) = true)
    (clean : (unary expr s).2.Clean) :
    (unary expr s).2.rest.length < i.length := by
  have rest' : (advance s).2.rest = u :: i := by rw [advance_cons rest]
  have apart : negated? (u :: i) = none := by simp [negated?, negatable?, isInt, goesOn]
  have noSign : prefixOf? u = none := by simp [prefixOf?, isInt]
  rw [unary_of_sign rest isMinus fun _ => apart] at clean ⊢
  rw [signed_congr (unary_of_noSign rest' noSign), signed, bind_apply] at clean ⊢
  obtain ⟨between, after⟩ := Onward.onward _ clean
  have opener : ∃ text ∈ postfixOpeners, startsWith text i = true := by
    rcases Bool.or_eq_true_iff.mp goesOn with dot | bracket
    · exact ⟨".", by decide, dot⟩
    · exact ⟨"[", by decide, bracket⟩
  exact Nat.lt_of_le_of_lt after.length_le (length_member_of_int rest' isInt opener between)

omit [Onward expr] [Strict expr] [Onward expr'] [Strict expr'] h in
theorem negated?_moved_of_none
    (after : List Token)
    (noInteger : negated? (u :: after) = none) :
    negated? (u.moved d :: (after.map (Token.moved d) ++ post)) = none := by
  have sameKind : (u.moved d).kind = u.kind := rfl
  simp only [negated?, negatable?, sameKind, Option.map_eq_none_iff] at noInteger ⊢
  cases isInt : u.kind with
  | int n =>
      rw [isInt] at noInteger
      cases after with
      | nil => simp [startsWith] at noInteger
      | cons v later => exact noInteger
  | _ => rfl

omit [Onward expr] [Strict expr] [Onward expr'] [Strict expr'] h in
/-- A minus sign belongs to an integer in the part, unless what stands behind the part goes on with
the integer. -/
theorem negated?_moved_of_some
    (post : List Token)
    (d : Nat)
    {after : List Token}
    (found : negated? after = some (u, n)) :
    negated? (after.map (Token.moved d) ++ post) = some (u.moved d, n) ∨
      after = [u] ∧ u.kind = .int n ∧ (startsWith "." post || startsWith "[" post) = true := by
  obtain ⟨later, isInteger, rfl⟩ := negated?_eq_some found
  have sameKind : (u.moved d).kind = u.kind := rfl
  cases isInt : u.kind with
  | int m =>
      simp only [negatable?, isInt] at isInteger
      cases later with
      | nil =>
          cases goesOn : startsWith "." post || startsWith "[" post with
          | false =>
              left
              simp_all [negated?, negatable?, startsWith]
          | true =>
              right
              simp_all [startsWith]
      | cons v later =>
          left
          have sameNext : ∀ text, (v.moved d).isSymbol text = v.isSymbol text := fun _ => rfl
          simp_all [negated?, negatable?, startsWith]
  | _ => simp [negatable?, isInt] at isInteger

end Signs

theorem tracks_unary
    [Strict (primary expr)]
    [Strict (unary expr)] :
    Tracks post k d (unary expr) (unary expr') (Expr.moved k d) := by
  intro s s' aligned
  generalize ahead : s'.rest.length = n
  induction n using Nat.strong_induction_on generalizing s s' with
  | _ n ih =>
      refine .ofStrict aligned fun t after rest => ?_
      have rests := aligned.cons rest
      have advanced := aligned.advance rest
      have sameSign : prefixOf? (t.moved d) = prefixOf? t := rfl
      cases isSign : prefixOf? t with
      | none =>
          exact .congr (unary_of_noSign rests (sameSign.trans isSign))
            (unary_of_noSign rest isSign) (tracks_member h s s' aligned)
      | some op =>
          rw [isSign] at sameSign
          by_cases folded : op = .neg ∧ (negated? after).isSome
          · obtain ⟨rfl, isSome⟩ := folded
            obtain ⟨⟨u, n⟩, found'⟩ := Option.isSome_iff_exists.mp isSome
            rcases negated?_moved_of_some post d found' with found | alone
            · obtain ⟨later, -, isNext⟩ := negated?_eq_some found'
              have rest' : (advance s').2.rest = u :: later := by rw [advance_cons rest, isNext]
              exact .congr (unary_of_negated rests sameSign found)
                (unary_of_negated rest isSign found')
                (.afterAdvance advanced rest' (tracks_intLiteral _ _ n _ true))
            · obtain ⟨rfl, isInt, goesOn⟩ := alone
              intro clean enough
              have less := length_unary_of_int rests sameSign isInt goesOn clean
              exact absurd enough (Nat.not_le_of_gt less)
          · have apart' : op = .neg → negated? after = none := by simpa using folded
            cases after with
            | nil =>
                intro clean enough
                exact absurd enough (Nat.not_le_of_gt (length_unary_of_sign rests sameSign clean))
            | cons u later =>
                have apart : op = .neg →
                    negated? (u.moved d :: (later.map (Token.moved d) ++ post)) = none :=
                  fun isMinus => negated?_moved_of_none later (apart' isMinus)
                refine .congr (unary_of_sign rests sameSign apart)
                  (unary_of_sign rest isSign apart') ?_
                have less : (advance s').2.rest.length < n := by
                  rw [advance_cons rest, ← ahead, rest]
                  exact Nat.lt_succ_self _
                exact (ih _ less _ _ advanced rfl).bind fun _ aligned' =>
                  tracks_node (fun _ => rfl) _ _ aligned'

/-! ### Whole expressions -/

theorem tracks_conditional
    [Strict (primary expr)]
    [Strict (unary expr)]
    [Strict (unary expr')] :
    Tracks post k d (conditional expr) (conditional expr') (Expr.moved k d) := by
  have alternatives : Tracks post k d (alternatives expr) (alternatives expr') (Expr.moved k d) :=
    tracks_leftAssoc (tracks_leftAssoc (tracks_leftAssoc (tracks_leftAssoc (tracks_leftAssoc
      (tracks_unary h) _) _) _) _) _
  refine fun s s' aligned => .ofStrict aligned fun t after rest => .atNextSpan aligned rest ?_
  refine (Tracks.bind alternatives fun cond => .ifSymbol ?_ (.pure rfl)) s s' aligned
  exact .bind h fun a => .bind (tracks_expect ":") fun _ => .bind h fun b => tracks_node fun _ => rfl

end Nested

theorem tracks_exprAt
    (limit : Int)
    {budget budget' : Nat}
    (le : budget ≤ budget') :
    Tracks post k d (exprAt limit budget) (exprAt limit budget') (Expr.moved k d) := by
  induction budget generalizing budget' with
  | zero => exact fun s _ _ clean => absurd clean (not_clean_cutOff limit s)
  | succ budget ih =>
      obtain ⟨n, rfl⟩ := Nat.exists_eq_add_of_lt le
      exact tracks_conditional (ih (Nat.le_add_right _ _))

end Parser
end ExprLang
