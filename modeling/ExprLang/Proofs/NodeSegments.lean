import ExprLang.Proofs.PartialParses
import ExprLang.Proofs.Rebinding
import ExprLang.Proofs.SourcePlaces

/-!
# Where the nodes of a tree were read

A node is built where a run of some part of the parser ends, over the tokens that this run took.  The
tokens alone are read in the same way, and where the whole input is read by a part of the parser, it is
read so by the parser of expressions.

* `Widens m M`: what `m` reads from its whole input is read so by `M`.
* `Stands whole tokens z`: the parser `whole` reads the node `z` from some of the tokens alone.
-/

namespace ExprLang
namespace Parser

open ExprLang.Expr (Row Everywhere everywhere_iff keepsShape_bindLocals)

/-! ### Parts of the parser that read whole inputs -/

/-- What a run of `m` reads from its whole input, a run of `M` reads as well. -/
def Widens (m M : Parser Expr) : Prop :=
  ∀ s, (m s).2.Clean → (m s).2.rest = [] → M s = m s

section Widens

variable {limit : Int} {budget : Nat} {level : Level} {expr operand m m' m'' : Parser Expr}

theorem Widens.trans
    (h : Widens m m')
    (h' : Widens m' m'') :
    Widens m m'' := by
  intro s clean rest
  have same := h s clean rest
  rw [← same] at clean rest ⊢
  exact h' s clean rest

/-- Nothing goes on at the end of the input. -/
theorem chained_of_rest_nil
    {first : Parser Expr} {round : Nat → Expr → Parser (Step Expr)} {s : State}
    [∀ start, Round (round start)]
    (fuel : Nat)
    (rest : (first s).2.rest = []) :
    chained first round fuel s = first s :=
  iterate_nil fuel _ rest

theorem widens_leftAssoc
    [Onward operand] :
    Widens operand (leftAssoc level operand) := by
  intro s clean rest
  rw [leftAssoc_apply, chained_of_rest_nil _ rest]

theorem widens_member
    [Onward expr] :
    Widens (primary expr) (member expr) := by
  intro s clean rest
  rw [member_apply, chained_of_rest_nil _ rest]

/-- A member begins with no operator. -/
theorem widens_unary : Widens (member (exprAt limit budget)) (unary (exprAt limit budget)) := by
  intro s clean rest
  have derived := sound_member (sound_exprAt limit budget) s.rest s rfl clean
  obtain ⟨t, after, isRest, -, noSign⟩ := derived.beginsWell
  exact unary_of_noSign isRest noSign

theorem widens_conditional
    [Onward expr] :
    Widens (alternatives expr) (conditional expr) := by
  intro s clean rest
  have here : (nextSpan s).2 = s := rfl
  rw [conditional, bind_apply, here, bind_apply, ifSymbol_apply, rest]
  generalize alternatives expr s = result
  rfl

end Widens

/-! ### Runs on the tokens of a node alone -/

/-- On the tokens that a run of `m` took, the parser `whole` comes to the same. -/
def ReadsAlone (whole : Parser Expr) (s : State) (m : Parser Expr) : Prop :=
  ∀ k d s', Aligned (m s).2.rest k d s s' →
    TracksFrom (m s).2.rest k d s s' m whole (Expr.moved k d)

theorem readsAlone_of_tracks
    {whole m m' : Parser Expr} {s : State}
    (h : ∀ k d s', Aligned (m s).2.rest k d s s' →
      TracksFrom (m s).2.rest k d s s' m m' (Expr.moved k d))
    (widens : Widens m' whole) :
    ReadsAlone whole s m := by
  intro k d s' aligned clean enough
  obtain ⟨same, ends⟩ := h k d s' aligned clean enough
  have rest : (m' s').2.rest = [] := by simpa using ends.rest
  rw [widens s' ends.alone rest]
  exact ⟨same, ends⟩

/-- The node `z` stands where some of the tokens do, and these tokens alone are read as `z`, but for
where they stand and how many nodes are numbered before. -/
def Stands (whole : Parser Expr) (tokens : List Token) (z : Expr) : Prop :=
  ∃ before inside after t u, tokens = before ++ inside ++ after ∧
    inside.head? = some t ∧ inside.getLast? = some u ∧ z.span = ⟨t.span.start, u.span.stop⟩ ∧
    ∃ k, ∀ n alone, alone.map (Token.moved t.span.start) = inside →
      (whole (initial n alone [])).2.Clean ∧ (whole (initial n alone [])).2.rest = [] ∧
        z = (whole (initial n alone [])).1.moved k t.span.start

/-- A node that a run built over all tokens that it took. -/
theorem stands_of_run
    {whole m : Parser Expr} {n : Nat} {tokens : List Token} {s : State}
    [onward : Onward m]
    (alone : ReadsAlone whole s m)
    (reached : s.Reached n tokens)
    (clean : (m s).2.Clean)
    (less : (m s).2.rest.length < s.rest.length)
    (span : (m s).1.span = ⟨s.place, (m s).2.lastEnd⟩) :
    Stands whole tokens (m s).1 := by
  obtain ⟨before, all, -⟩ := reached.before.taken
  obtain ⟨inside, rest, lastEnd⟩ := (onward.onward s clean).2.taken
  change tokens = before ++ s.rest at all
  rcases List.eq_nil_or_concat' inside with rfl | ⟨leading, u, isSnoc⟩
  · rw [rest] at less
    exact absurd less (Nat.lt_irrefl _)
  obtain ⟨t, following, isCons⟩ := List.exists_cons_of_ne_nil
    (by rw [isSnoc]; simp : inside ≠ [])
  have place : s.place = t.span.start := place_cons (rest.trans (by rw [isCons]; rfl))
  have stop : (m s).2.lastEnd = u.span.stop := by
    rw [lastEnd, isSnoc, lastStop_append]
    rfl
  refine ⟨before, inside, (m s).2.rest, t, u, ?_, ?_, ?_, ?_, s.nextId - 1, ?_⟩
  · rw [all, rest, List.append_assoc]
  · rw [isCons, List.head?_cons]
  · rw [isSnoc, List.getLast?_concat]
  · rw [span, place, stop]
  · intro n' tokens' same
    have positive : 1 ≤ s.nextId := reached.before.nextId
    have ends := reached.lastEnd_le.1
    have aligned : Aligned (m s).2.rest (s.nextId - 1) t.span.start s (initial n' tokens' []) := by
      refine ⟨rest.trans (by rw [← same]; rfl), ?_, ?_, (onward.onward s clean).1, ⟨rfl, rfl, rfl⟩⟩
      · change max t.span.start s.lastEnd = 0 + t.span.start
        omega
      · change s.nextId = 1 + (s.nextId - 1)
        omega
    obtain ⟨result, after⟩ := alone _ _ _ aligned clean (Nat.le_refl _)
    exact ⟨after.alone, by simpa using after.rest, result⟩

/-! ### Nodes of clean runs -/

/-- A node in a text of length `n` that stands around its children, and that is read from its tokens
alone but for the names that are bound around it. -/
structure Rooted (n : Nat) (tokens : List Token) (whole : Parser Expr) (x : Expr) : Prop where
  proper : x.span.start < x.span.stop
  ends : x.span.stop ≤ n
  children : Row x.span.start x.children x.span.stop
  stands : ∃ names z, x = z.bindLocals names ∧ Stands whole tokens z

section Grown

variable {n : Nat} {tokens : List Token} {whole : Parser Expr} {s s₀ s₁ s₂ s₃ : State}
  {es es' : List Expr} {e : Expr}

theorem Rooted.bindLocals
    (h : Rooted n tokens whole e)
    (names : List String) :
    Rooted n tokens whole (e.bindLocals names) := by
  obtain ⟨proper, ends, children, inner, z, rfl, stands⟩ := h
  rw [← Expr.span_bindLocals names] at proper ends children
  refine ⟨proper, ends, ?_, inner ++ names, z, Expr.bindLocals_bindLocals inner names z, stands⟩
  refine children.congr ?_
  rw [Expr.children_map (keepsShape_bindLocals names), List.map_map]
  exact List.map_congr_left fun c _ => Expr.span_bindLocals names c

theorem everywhere_bindLocals
    (h : Everywhere (Rooted n tokens whole) e)
    (names : List String) :
    Everywhere (Rooted n tokens whole) (e.bindLocals names) :=
  (Expr.everywhere_map_iff (keepsShape_bindLocals names)).mpr fun x inside =>
    (h x inside).bindLocals names

/-- Expressions that a run from `s` to `s'` read one after the other. -/
structure Grown (n : Nat) (tokens : List Token) (whole : Parser Expr) (s : State)
    (es : List Expr) (s' : State) : Prop where
  each : ∀ e ∈ es, Everywhere (Rooted n tokens whole) e
  row : Row s.place es s'.lastEnd

theorem Grown.nil : Grown n tokens whole s [] s₁ :=
  ⟨nofun, .nil⟩

theorem Grown.append
    (h : Grown n tokens whole s₀ es s₁)
    (h' : Grown n tokens whole s₂ es' s₃)
    (first : Path n tokens s₀ s₁)
    (between : Path n tokens s₁ s₂)
    (second : Path n tokens s₂ s₃) :
    Grown n tokens whole s₀ (es ++ es') s₃ := by
  have first := first.places
  have ends := between.starts.lastEnd_le
  have between := between.places
  have second := second.places
  refine ⟨fun e member => ?_, h.row.append h'.row ?_ ?_ ?_⟩
  · exact (List.mem_append.mp member).elim (h.each e) (h'.each e)
  all_goals omega

theorem Grown.sublist
    (h : Grown n tokens whole s₀ es s₁)
    (part : es'.Sublist es) :
    Grown n tokens whole s₀ es' s₁ :=
  ⟨fun e member => h.each e (part.subset member), h.row.sublist part⟩

/-- The names of variables are bound in what stands in their scope. -/
theorem Grown.bindInner
    (es : List Expr)
    (h : Grown n tokens whole s₀ (es ++ es') s₁)
    (names : List String) :
    Grown n tokens whole s₀ (es ++ es'.map (Expr.bindLocals names)) s₁ := by
  refine ⟨fun e member => ?_, h.row.congr ?_⟩
  · rcases List.mem_append.mp member with outer | inner
    · exact h.each e (List.mem_append_left _ outer)
    · obtain ⟨c, isInner, rfl⟩ := List.mem_map.mp inner
      exact everywhere_bindLocals (h.each c (List.mem_append_right _ isInner)) names
  · rw [List.map_append, List.map_append, List.map_map]
    exact congrArg _ (List.map_congr_left fun c _ => Expr.span_bindLocals names c)

theorem Grown.earlier
    (h : Grown n tokens whole s₁ es s₂)
    (before : Path n tokens s₀ s₁) :
    Grown n tokens whole s₀ es s₂ :=
  ⟨h.each, h.row.mono before.places.1 (Nat.le_refl _)⟩

theorem Grown.later
    (h : Grown n tokens whole s₁ es s₂)
    (after : Path n tokens s₂ s₃) :
    Grown n tokens whole s₁ es s₃ :=
  ⟨h.each, h.row.mono (Nat.le_refl _) after.places.2.1⟩

/-- A new node over what was read since `start`. -/
structure Sprout (n : Nat) (tokens : List Token) (whole : Parser Expr) (start : Nat) (e : Expr)
    (s : State) : Prop where
  span : e.span = ⟨start, s.lastEnd⟩
  each : ∀ c ∈ e.children, Everywhere (Rooted n tokens whole) c
  row : Row start e.children s.lastEnd

/-- A new node over all that a run took is read from its tokens alone. -/
theorem grown_of_sprout
    {m : Parser Expr}
    [onward : Onward m]
    (alone : ReadsAlone whole s m)
    (reached : s.Reached n tokens)
    (clean : (m s).2.Clean)
    (less : (m s).2.rest.length < s.rest.length)
    (sprout : Sprout n tokens whole s.place (m s).1 (m s).2) :
    Grown n tokens whole s [(m s).1] (m s).2 := by
  have stands := stands_of_run alone reached clean less sprout.span
  have path := path_of_run reached clean
  have ends := path.ends.lastEnd_le
  have proper := path.places.2.2 less
  obtain ⟨span, each, row⟩ := sprout
  have start : (m s).1.span.start = s.place := by rw [span]
  have stop : (m s).1.span.stop = (m s).2.lastEnd := by rw [span]
  have rooted : Rooted n tokens whole (m s).1 := by
    refine ⟨by omega, by omega, by rwa [start, stop], [], _, (Expr.bindLocals_nil _).symm, stands⟩
  refine ⟨List.forall_mem_singleton.mpr (everywhere_iff.mpr ⟨rooted, each⟩), ?_, ?_⟩
  · exact List.forall_mem_singleton.mpr ⟨by omega, rooted.proper, by omega⟩
  · exact List.pairwise_singleton _ _

end Grown

end Parser
end ExprLang
