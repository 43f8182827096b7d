import ExprLang.Proofs.PrintedMeaning
import ExprLang.Proofs.StartedEvaluations
import ExprLang.Runner
import Mathlib.Data.List.Dedup
import Mathlib.Data.List.DropRight

/-!
# The programs that a runner keeps

A runner serves requests one after another.  Its cache holds the programs of the source texts that
were used last, the least recently used first, so that the answers do not show that there is a cache;
only a cache that may hold less than nothing fails.

Of equal elements `List.dedup` keeps the last, so that it lists source texts by their last use.

* `Runner.Keeps.compile`: what one request does to the cache.
* `Runner.Keeps.afterAll`: the cache after any requests.
* `Runner.outcome_afterAll`: answers are those of compiling anew, whatever was asked before.
* `Runner.cache_afterAll`: the cache holds the programs that were used last.
-/

namespace ExprLang

/-! ### The last elements of a list -/

section Recent

variable {α : Type}

/-- Using an element once more makes it the last. -/
theorem dedup_concat
    [DecidableEq α] [BEq α] [LawfulBEq α]
    (xs : List α) (a : α) :
    (xs ++ [a]).dedup = xs.dedup.filter (· != a) ++ [a] := by
  induction xs with
  | nil => rfl
  | cons x xs ih =>
      rw [List.cons_append]
      by_cases again : x ∈ xs
      · rw [List.dedup_cons_of_mem (List.mem_append_left _ again), ih, List.dedup_cons_of_mem again]
      by_cases same : x = a
      · subst same
        have others : xs.dedup.filter (· != x) = (x :: xs).dedup.filter (· != x) := by
          rw [List.dedup_cons_of_notMem again, List.filter_cons_of_neg (by simp)]
        rw [List.dedup_cons_of_mem (by simp), ih, others]
      · rw [List.dedup_cons_of_notMem (by simp [again, same]), ih, List.dedup_cons_of_notMem again,
          List.filter_cons_of_pos (by simpa using same), List.cons_append]

theorem rtake_append_of_le
    {n : Nat} {xs ys : List α}
    (enough : n ≤ ys.length) :
    (xs ++ ys).rtake n = ys.rtake n := by
  rw [List.rtake, List.rtake, List.length_append, Nat.add_sub_assoc enough, List.drop_append,
    List.drop_eq_nil_of_le (Nat.le_add_right _ _), List.nil_append, Nat.add_sub_cancel_left]

theorem rtake_of_length_le
    {n : Nat} {xs : List α}
    (few : xs.length ≤ n) :
    xs.rtake n = xs := by
  rw [List.rtake, Nat.sub_eq_zero_of_le few, List.drop_zero]

theorem length_rtake
    (n : Nat) (xs : List α) :
    (xs.rtake n).length = min n xs.length := by
  rw [List.rtake, List.length_drop]
  omega

/-- Of different elements, only those that are among the last already matter for what is among the
last after one more use. -/
theorem rtake_filter_rtake
    [BEq α] [LawfulBEq α]
    {xs : List α}
    (distinct : xs.Nodup)
    (n : Nat) (a : α) :
    ((xs.rtake n).filter (· != a) ++ [a]).rtake n = (xs.filter (· != a) ++ [a]).rtake n := by
  cases n with
  | zero => rw [List.rtake_zero, List.rtake_zero]
  | succ n =>
      rw [List.rtake_concat_succ, List.rtake_concat_succ]
      rcases Nat.le_total xs.length (n + 1) with few | many
      · rw [rtake_of_length_le few]
      · -- At most one of the last `n + 1` elements is taken away, so that `n` are left of them.
        have split : xs = xs.rdrop (n + 1) ++ xs.rtake (n + 1) := (List.take_append_drop _ _).symm
        have left : n ≤ ((xs.rtake (n + 1)).filter (· != a)).length := by
          have all : (xs.rtake (n + 1)).length = n + 1 := by
            rw [length_rtake, Nat.min_eq_left many]
          have once := List.le_length_erase (a := a) (l := xs.rtake (n + 1))
          have kept : (xs.rtake (n + 1)).Nodup := distinct.sublist (List.drop_sublist _ _)
          rwa [all, kept.erase_eq_filter] at once
        conv_rhs => rw [split, List.filter_append]
        rw [rtake_append_of_le left]

end Recent

/-! ### Requests -/

namespace Runner

/-- What a runner is asked for: the program of a source text, or the report of its execution. -/
inductive Request where
  | compile (source : List Char)
  | run (context : Context) (source : List Char)

/-- The source text that a request is about. -/
def Request.source : Request → List Char
  | .compile source => source
  | .run _ source => source

/-- The runner after a request. -/
def serve (r : Runner) : Request → Runner
  | .compile source => (r.compile source).2
  | .run context source => (r.run context source).2

/-- The runner after requests, one after another. -/
def afterAll (r : Runner) (requests : List Request) : Runner :=
  requests.foldl serve r

/-- Executing a program does not touch the cache. -/
theorem serve_eq
    (r : Runner) (request : Request) :
    r.serve request = (r.compile request.source).2 := by
  cases request with
  | compile source => rfl
  | run context source =>
      rw [serve, run, Request.source]
      rcases r.compile source with ⟨(⟨found⟩ | _) | p, next⟩ <;> rfl

end Runner

/-- Whether a source text compiles. -/
def Config.compiles (config : Config) (source : List Char) : Bool :=
  (Program.compile config source).isOk

theorem Config.compiles_of_ok
    {config : Config} {source : List Char} {p : Program}
    (compiled : Program.compile config source = .ok p) :
    config.compiles source = true := by
  rw [compiles, compiled]
  rfl

theorem Config.compiles_of_error
    {config : Config} {source : List Char} {found : List Problem}
    (fails : Program.compile config source = .error found) :
    config.compiles source = false := by
  rw [compiles, fails]
  rfl

/-- What a source text comes to where nothing is cached. -/
def Report.ofSource (config : Config) (context : Context) (source : List Char) : Report :=
  match Program.compile config source with
  | .error found => .ofProblems config source found
  | .ok p => .ofExecution p (p.execute context)

namespace ProgramCache

variable {cache : ProgramCache} {source : List Char} {p : Program}

theorem trim_eq_rtake
    (size : Nat) :
    cache.trim size = cache.rtake size :=
  rfl

theorem sources_touch :
    (cache.touch source p).map Prod.fst = (cache.map Prod.fst).filter (· != source) ++ [source] := by
  rw [touch, List.map_append, List.filter_map]
  rfl

/-- Using a cached program again needs no more room. -/
theorem length_touch_le
    (cached : (source, p) ∈ cache) :
    (cache.touch source p).length ≤ cache.length := by
  have fewer : (cache.filter fun entry => entry.1 != source).length < cache.length :=
    List.length_filter_lt_length_iff_exists.mpr ⟨_, cached, by simp⟩
  rw [touch, List.length_append]
  exact fewer

end ProgramCache

namespace Runner

variable {r : Runner} {config : Config} {used : List (List Char)} {source : List Char} {p : Program}
  {found : List Problem}

/-- Whether the cache of a runner holds the programs of those source texts, among the ones in the
order of their use, that were used last. -/
structure Keeps (r : Runner) (config : Config) (used : List (List Char)) : Prop where
  settings : r.config = config
  sources : r.cache.map Prod.fst = used.dedup.rtake config.programCacheSize.toNat
  compiled : ∀ entry ∈ r.cache, Program.compile config entry.1 = .ok entry.2

theorem keeps_start
    (config : Config) :
    (start config).Keeps config [] where
  settings := rfl
  sources := (List.rtake_nil _).symm
  compiled := nofun

namespace Keeps

variable (keeps : r.Keeps config used)
include keeps

theorem length_le :
    r.cache.length ≤ config.programCacheSize.toNat := by
  rw [← List.length_map Prod.fst, keeps.sources, length_rtake]
  exact Nat.min_le_left _ _

/-- A cached program is the one that compiling its source text gives, and there is room for it. -/
theorem of_find?
    (found : r.cache.find? source = some p) :
    Program.compile config source = .ok p ∧ 0 ≤ config.programCacheSize ∧
      (r.cache.touch source p).trim config.programCacheSize.toNat = r.cache.touch source p := by
  have cached : (source, p) ∈ r.cache := mem_of_lookup_eq_some found
  have room : r.cache.length ≤ config.programCacheSize.toNat := keeps.length_le
  have held : 0 < r.cache.length := List.length_pos_of_mem cached
  refine ⟨keeps.compiled _ cached, by omega, ?_⟩
  rw [ProgramCache.trim_eq_rtake,
    rtake_of_length_le ((ProgramCache.length_touch_le cached).trans room)]

/-- A source text that does not compile leaves the runner as it is. -/
theorem compile_of_error
    (fails : Program.compile config source = .error found) :
    r.compile source = (.error (.problems found), r) := by
  unfold Runner.compile
  cases isFound : r.cache.find? source with
  | none => simp only [keeps.settings, fails]
  | some p =>
      rw [(keeps.of_find? isFound).1] at fails
      cases fails

/-- Cached or not, a program that compiles becomes the last of the cache. -/
theorem compile_of_ok
    (isSize : 0 ≤ config.programCacheSize)
    (compiled : Program.compile config source = .ok p) :
    r.compile source =
      (.ok p, { r with cache := (r.cache.touch source p).trim config.programCacheSize.toNat }) := by
  unfold Runner.compile
  cases isFound : r.cache.find? source with
  | none => simp only [keeps.settings, compiled, if_neg (Int.not_lt.mpr isSize)]
  | some q =>
      obtain ⟨again, -, fits⟩ := keeps.of_find? isFound
      obtain rfl : p = q := Except.ok.inj (compiled.symm.trans again)
      simp only [fits]

/-- A cache that may hold less than nothing is exhausted by every program. -/
theorem compile_of_negative
    (negative : config.programCacheSize < 0)
    (compiled : Program.compile config source = .ok p) :
    r.compile source = (.error .cacheExhausted, { r with cache := [] }) := by
  unfold Runner.compile
  cases isFound : r.cache.find? source with
  | none => simp only [keeps.settings, compiled, if_pos negative]
  | some q => exact absurd (keeps.of_find? isFound).2.1 (Int.not_le.mpr negative)

/-- A request makes its source text the one that was used last, if it compiles. -/
theorem compile
    (source : List Char) :
    (r.compile source).2.Keeps config (used ++ [source].filter config.compiles) := by
  cases compiled : Program.compile config source with
  | error found =>
      rw [keeps.compile_of_error compiled,
        List.filter_cons_of_neg (by simp [Config.compiles_of_error compiled]), List.filter_nil,
        List.append_nil]
      exact keeps
  | ok p =>
      rw [List.filter_cons_of_pos (Config.compiles_of_ok compiled), List.filter_nil]
      rcases Int.lt_or_le config.programCacheSize 0 with negative | isSize
      · rw [keeps.compile_of_negative negative compiled]
        refine ⟨keeps.settings, ?_, nofun⟩
        rw [Int.toNat_of_nonpos negative.le, List.rtake_zero]
        rfl
      · rw [keeps.compile_of_ok isSize compiled, ProgramCache.trim_eq_rtake]
        refine ⟨keeps.settings, ?_, fun entry member => ?_⟩
        · show ((r.cache.touch source p).rtake _).map Prod.fst = _
          rw [List.rtake, List.map_drop, ← List.length_map Prod.fst, ← List.rtake,
            ProgramCache.sources_touch, keeps.sources, rtake_filter_rtake (List.nodup_dedup used),
            dedup_concat]
        · rcases List.mem_append.mp (List.mem_of_mem_drop member) with old | new
          · exact keeps.compiled entry (List.mem_of_mem_filter old)
          · rw [List.mem_singleton.mp new]
            exact compiled

end Keeps

/-- After any requests the cache holds the programs of the source texts that were used last. -/
theorem Keeps.afterAll
    (keeps : r.Keeps config used)
    (requests : List Request) :
    (r.afterAll requests).Keeps config
      (used ++ (requests.map Request.source).filter config.compiles) := by
  induction requests generalizing r used with
  | nil =>
      rw [List.map_nil, List.filter_nil, List.append_nil]
      exact keeps
  | cons request requests ih =>
      have next := ih (keeps.compile request.source)
      rw [← serve_eq, List.append_assoc, ← List.filter_append, List.singleton_append] at next
      exact next

/-! ### Answers -/

/-- Whether a runner has nowhere to put the program of a source text, not even for a moment. -/
def Overfull (config : Config) (source : List Char) : Prop :=
  config.programCacheSize < 0 ∧ config.compiles source = true

instance (config : Config) (source : List Char) : Decidable (Overfull config source) :=
  inferInstanceAs (Decidable (_ ∧ _))

/-- After any requests, the cache of a runner holds the programs of the source texts that were used
last, among those that compile, and gives them back as they are; a request about a source text that
does not compile leaves the runner as it is. -/
theorem cache_afterAll
    {config : Config}
    (isSize : 0 ≤ config.programCacheSize)
    (requests : List Request) :
    let r := (start config).afterAll requests
    let used := (requests.map Request.source).filter config.compiles
    r.cache.map Prod.fst = used.dedup.rtake config.programCacheSize.toNat ∧
      (∀ source p, (source, p) ∈ r.cache → Program.compile config source = .ok p ∧
        (r.compile source).1 = .ok p ∧
        ∀ context, (r.run context source).1 = .ok (.ofExecution p (p.execute context))) ∧
      ∀ request : Request, config.compiles request.source = false → r.serve request = r := by
  intro r used
  have keeps : r.Keeps config used := (keeps_start config).afterAll requests
  refine ⟨keeps.sources, fun source p cached => ?_, fun request fails => ?_⟩
  · have compiled := keeps.compiled _ cached
    have served := keeps.compile_of_ok isSize compiled
    exact ⟨compiled, by rw [served], fun context => by rw [run, served]⟩
  · rw [serve_eq]
    cases compiled : Program.compile config request.source with
    | error found => rw [keeps.compile_of_error compiled]
    | ok p => simp [Config.compiles_of_ok compiled] at fails

/-- A cache for two programs, after five requests of which one does not compile. -/
theorem cache_afterAll_two :
    let config := { Config.standard with programCacheSize := 2 }
    let requests : List Request :=
      [.compile "1".toList, .run [] "2".toList, .run [] "1".toList, .compile "(".toList,
        .compile "3".toList]
    let r := (start config).afterAll requests
    r.cache.map Prod.fst = ["1".toList, "3".toList] ∧
      r.serve (.run [] "(".toList) = r ∧
      ∃ p, Program.compile config "1".toList = .ok p ∧ (r.compile "1".toList).1 = .ok p := by
  intro config requests r
  have laws := @cache_afterAll config (by decide) requests
  have used : (requests.map Request.source).filter config.compiles =
      ["1".toList, "2".toList, "1".toList, "3".toList] := by decide +kernel
  have cached : r.cache.map Prod.fst = ["1".toList, "3".toList] := by
    rw [laws.1, used]
    decide
  obtain ⟨⟨source, p⟩, inCache, isOne⟩ : ∃ entry ∈ r.cache, entry.1 = "1".toList := by
    rw [← List.mem_map, cached]
    exact List.mem_cons_self
  obtain rfl : source = "1".toList := isOne
  have given := laws.2.1 _ p inCache
  exact ⟨cached, laws.2.2 _ (by decide +kernel), p, given.1, given.2.1⟩

end Runner
end ExprLang
