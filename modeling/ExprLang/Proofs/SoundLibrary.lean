import ExprLang.Proofs.SoundHosts

/-!
# The standard library keeps values well-formed

Most standard functions end with objects of the host, which are checked like those of any function.
The conversions to integers end with values that they have checked themselves, and the extremes end
with one of the values that they were given.

* `sound_toWhole`, `wellFormed_extreme`: the functions that end with values.
* `sound_entries`: all standard functions.
* `built_standard`: the scope of the standard library.
-/

namespace ExprLang
namespace Stdlib

open Value (WellFormed)

/-! ### Functions that end with values -/

theorem wellFormed_bestOf
    {keeps : Ordering → Bool} {best v : Value} {vs : List Value}
    (hbest : best.WellFormed)
    (wellFormed : ∀ w ∈ vs, w.WellFormed)
    (result : bestOf keeps best vs = .ok v) :
    v.WellFormed := by
  induction vs generalizing best with
  | nil =>
      cases result
      exact hbest
  | cons w rest ih =>
      obtain ⟨hw, wellFormed⟩ := List.forall_mem_cons.mp wellFormed
      obtain ⟨order, -, result⟩ := except_bind_eq_ok.mp result
      refine ih ?_ wellFormed result
      split
      · exact hbest
      · exact hw

/-- An extreme is one of the values, or null. -/
theorem wellFormed_extreme
    {keeps : Ordering → Bool} {args : List Value} {v : Value}
    (wellFormed : ∀ w ∈ args, w.WellFormed)
    (result : extreme keeps args = .ok v) :
    v.WellFormed := by
  unfold extreme at result
  split at result
  · cases result
    trivial
  next first rest =>
    have items := Value.wellFormed_list_iff.mp (wellFormed _ List.mem_cons_self)
    obtain ⟨hfirst, hrest⟩ := List.forall_mem_cons.mp items
    exact wellFormed_bestOf hfirst hrest result
  · cases result
    trivial
  · obtain ⟨hfirst, hrest⟩ := List.forall_mem_cons.mp wellFormed
    exact wellFormed_bestOf hfirst hrest result

section Whole

variable {info : CallInfo} {low high : Int} {wrap : Int → Value}
  (wraps : ∀ n, low ≤ n → n ≤ high → (wrap n).WellFormed)
include wraps

theorem sound_inRange
    (n : Int) :
    (inRange info low high wrap n).Sound := by
  unfold inRange
  split
  next bounds => exact wraps n bounds.1 bounds.2
  · trivial

theorem sound_toWhole
    (v : Value) :
    (toWhole info low high wrap v).Sound := by
  unfold toWhole
  split
  · exact sound_inRange wraps _
  · exact sound_inRange wraps _
  · split
    · exact sound_inRange wraps _
    · trivial
  · split
    · exact sound_inRange wraps _
    · trivial
    · trivial
  · trivial

end Whole

theorem sound_toInt
    (info : CallInfo) (v : Value) :
    (toInt info v).Sound := by
  refine sound_toWhole (fun n low high => ?_) v
  exact And.intro low high

theorem sound_toUInt
    (info : CallInfo) (v : Value) :
    (toUInt info v).Sound := by
  refine sound_toWhole (fun n low high => ?_) v
  show n.toNat ≤ maxUInt
  omega

/-! ### Entries -/

theorem soundBody_onValue
    {type : ParamType} {f : Value → HostProgram}
    (sound : ∀ v, v.WellFormed → (f v).Sound) :
    SoundBody (onValue type f).body := by
  intro info args hargs
  simp only [onValue]
  split
  · exact sound _ (hargs _ List.mem_cons_self)
  · trivial

theorem soundBody_conversion
    {type : ParamType} {f : CallInfo → Value → HostProgram}
    (sound : ∀ info v, (f info v).Sound) :
    SoundBody (conversion type f).body := by
  intro info args hargs
  simp only [conversion]
  split
  · exact sound info _
  · trivial

theorem soundBody_onTexts
    (f : String → String → Bool) :
    SoundBody (onTexts f).body := by
  intro info args hargs
  simp only [onTexts]
  split <;> trivial

theorem soundBody_onTimestamp
    (f : Time.Timestamp → Int) :
    SoundBody (onTimestamp f).body := by
  intro info args hargs
  simp only [onTimestamp]
  split <;> trivial

theorem sound_ofOutcome
    {o : Outcome Value}
    (wellFormed : ∀ v, o = .ok v → v.WellFormed) :
    (HostProgram.ofOutcome o).Sound := by
  cases o with
  | error e => trivial
  | ok v => exact wellFormed v rfl

theorem soundBody_onValues
    {f : List Value → Outcome Value}
    (wellFormed : ∀ vs v, (∀ w ∈ vs, w.WellFormed) → f vs = .ok v → v.WellFormed) :
    SoundBody (onValues f).body := by
  intro info args hargs
  refine sound_ofOutcome fun v result => wellFormed _ v (fun w member => ?_) result
  obtain ⟨a, isArg, isValue⟩ := List.mem_filterMap.mp member
  split at isValue <;> cases isValue
  exact hargs _ isArg

theorem soundBody_contains : SoundBody containsEntry.body := by
  intro info args hargs
  simp only [containsEntry]
  split
  next container item =>
    refine sound_ofOutcome fun v result => ?_
    cases found : containment container item <;> rw [found] at result <;> cases result
    trivial
  · trivial

theorem sound_matchesPattern
    (s pattern : String) :
    (matchesPattern s pattern).Sound := by
  unfold matchesPattern
  split <;> trivial

theorem soundBody_matches : SoundBody matchesEntry.body := by
  intro info args hargs
  simp only [matchesEntry]
  split
  · exact sound_matchesPattern _ _
  · exact sound_matchesPattern _ _
  · trivial

theorem soundBody_regex : SoundBody regexEntry.body := by
  intro info args hargs
  simp only [regexEntry, makeRegex]
  split
  · split <;> trivial
  · trivial

theorem soundBody_size : SoundBody sizeEntry.body :=
  soundBody_onValue fun v _ => by
    unfold measure
    split <;> trivial

theorem soundBody_bytes : SoundBody bytesEntry.body :=
  soundBody_onValue fun v _ => by split <;> trivial

theorem soundBody_duration : SoundBody durationEntry.body :=
  soundBody_onValue fun v _ => by
    split
    · trivial
    · unfold toDuration
      split <;> trivial
    · trivial

theorem soundBody_timestamp : SoundBody timestampEntry.body :=
  soundBody_onValue fun v _ => by
    split
    · trivial
    · unfold toTimestamp
      split <;> trivial
    · unfold ofEpochSeconds
      split <;> trivial
    · trivial

theorem soundBody_text : SoundBody textEntry.body :=
  soundBody_conversion fun info v => by
    unfold toText
    split <;> trivial

theorem soundBody_float : SoundBody floatEntry.body :=
  soundBody_conversion fun info v => by
    unfold toFloat
    split
    · trivial
    · trivial
    · trivial
    · split <;> trivial
    · trivial

/-- All standard functions are sound. -/
theorem sound_entries
    (now : Time.Timestamp) :
    ∀ x ∈ entries now, SoundBody x.2.body := by
  have int : SoundBody intEntry.body := soundBody_conversion sound_toInt
  have uint : SoundBody uintEntry.body := soundBody_conversion sound_toUInt
  have best : ∀ keeps, SoundBody (onValues (extreme keeps)).body :=
    fun keeps => soundBody_onValues fun _ _ => wellFormed_extreme
  have field := soundBody_onTimestamp
  have clock : SoundBody (nowEntry now).body := fun _ _ _ => trivial
  simp only [entries, List.forall_mem_cons]
  exact ⟨
    soundBody_size, soundBody_size, soundBody_contains,
    soundBody_onTexts _, soundBody_onTexts _, soundBody_onTexts _, soundBody_onTexts _,
    soundBody_matches, best _, best _,
    soundBody_text, soundBody_text, soundBody_bytes, soundBody_bytes,
    soundBody_float, soundBody_float, int, int, uint, uint,
    soundBody_regex, soundBody_duration, soundBody_duration,
    soundBody_timestamp, soundBody_timestamp,
    field _, field _, field _, field _, field _, field _, field _, field _,
    field _, field _, field _, field _, field _, field _, field _, clock, nofun⟩

end Stdlib

theorem Scope.Built.addEntries
    {s : Scope} {listed : List (String × Stdlib.Entry)}
    (built : s.Built)
    (sound : ∀ x ∈ listed, SoundBody x.2.body) :
    (listed.foldl (fun scope (name, entry) => Stdlib.addEntry scope name entry) s).Built := by
  induction listed generalizing s with
  | nil => exact built
  | cons x rest ih =>
      obtain ⟨name, entry⟩ := x
      obtain ⟨hx, sound⟩ := List.forall_mem_cons.mp sound
      refine ih ?_ sound
      change (Stdlib.addEntry s name entry).Built
      unfold Stdlib.addEntry
      split
      next added => exact built.addFunction hx added
      · exact built

/-- The scope of the standard library is made by registering sound functions. -/
theorem built_standard
    (now : Time.Timestamp) :
    (Scope.standard now).Built :=
  Scope.Built.empty.addEntries (Stdlib.sound_entries now)

end ExprLang
