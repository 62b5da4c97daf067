import AnswerGrading.Proofs.PositionalPatterns
import AnswerGrading.Proofs.SinglePass
import AnswerGrading.Specification.Diagnostic

namespace AnswerGrading

open Regex

namespace Fragment

def Part.marked (done : List Pass) (p : Part) : List (Option Char) :=
  if p = .lexeme (.single ' ') then [none] else (p.after done).map some

/-- The text of a fragment's pattern with its authored spaces marked. -/
def marked (fs : Flags) (cs : List Char) : List (Option Char) :=
  ['^', '(', '?', ':'].map some ++
    ((parts cs).flatMap (Part.marked (Pass.order.filter (Pass.isOn fs))) ++ [')', '$'].map some)

theorem Part.after_congr {done done' : List Pass} (h : ∀ q ≠ .spaces, q ∈ done ↔ q ∈ done')
    {p : Part} (hp : p ≠ .lexeme (.single ' ')) : p.after done = p.after done' := by
  have hspaces {q : Pass} {text : List Char} (hi : p.image? = some (q, text)) : q ≠ .spaces := by
    rintro rfl
    unfold image? at hi
    split at hi
    · exact hp rfl
    all_goals cases hi
  unfold after
  split
  · rename_i hi
    simp only [h _ (hspaces hi)]
  · rfl

theorem mem_filter_isOn_iff (fs : Flags) (on : Bool) {q : Pass} (hq : q ≠ .spaces) :
    q ∈ Pass.order.filter (Pass.isOn fs) ↔
      q ∈ Pass.order.filter (Pass.isOn { fs with infiniteSpace := on }) := by
  cases q <;> simp_all [List.mem_filter, Pass.isOn]

theorem fill_marked {fill : List (Option Char) → List Char}
    (happend : ∀ ms ns, fill (ms ++ ns) = fill ms ++ fill ns)
    (hsome : ∀ cs, fill (cs.map some) = cs) (fs : Flags) (on : Bool)
    (hspace : fill [none] = if on then spaceRun else [' ']) (cs : List Char) :
    fill (marked fs cs) = anchored (body { fs with infiniteSpace := on } cs) := by
  have hpart (p : Part) : fill (p.marked (Pass.order.filter (Pass.isOn fs))) =
      p.after (Pass.order.filter (Pass.isOn { fs with infiniteSpace := on })) := by
    unfold Part.marked
    split
    · rename_i hp
      rw [hp, hspace]
      cases on <;> simp [Part.after, Part.image?, Part.source, Lexeme.text, Pass.order, Pass.isOn]
    · rename_i hp
      rw [hsome]
      exact Part.after_congr (fun _ => mem_filter_isOn_iff fs on) hp
  have hparts (ps : List Part) :
      fill (ps.flatMap (Part.marked (Pass.order.filter (Pass.isOn fs)))) =
        ps.flatMap (Part.after (Pass.order.filter (Pass.isOn { fs with infiniteSpace := on }))) := by
    induction ps with
    | nil => exact hsome []
    | cons p ps ih => rw [List.flatMap_cons, happend, hpart, ih, List.flatMap_cons]
  rw [marked, happend, happend, hsome, hsome, hparts, ← Pass.runAll_order,
    runAll_eq _ Pass.order_pairwise]
  simp [anchored]

theorem narrow_marked (fs : Flags) (cs : List Char) :
    narrow (marked fs cs) = anchored (body { fs with infiniteSpace := false } cs) :=
  fill_marked narrow_append narrow_map_some fs false rfl cs

theorem wide_marked (fs : Flags) (cs : List Char) :
    wide (marked fs cs) = anchored (body { fs with infiniteSpace := true } cs) :=
  fill_marked wide_append wide_map_some fs true rfl cs

def withSpaces (fs : Flags) (on : Bool) : Flags :=
  { fs with infiniteSpace := on }

/-- Each authored space is a piece of the pattern or adds to a bracket expression, wherever the
reader meets it. -/
def SpacesApart (fragment : String) (fs : Flags) : Prop :=
  Reading.SpacesApart ((marked fs fragment.toList).length + 1)
    { modes := (synthesize fragment fs).modes } (marked fs fragment.toList)

instance (fragment : String) (fs : Flags) : Decidable (SpacesApart fragment fs) :=
  inferInstanceAs (Decidable (Reading.SpacesApart ..))

theorem SpacesApart.read {fragment : String} {fs : Flags} (h : SpacesApart fragment fs)
    {source : Source}
    (hread : Source.read (synthesize fragment (withSpaces fs false)).modes
      (synthesize fragment (withSpaces fs false)).text.toList = .ok source) :
    ∃ source', Source.read (synthesize fragment (withSpaces fs true)).modes
      (synthesize fragment (withSpaces fs true)).text.toList = .ok source' ∧
      source.Wider source' := by
  rw [toList_synthesize, withSpaces, ← narrow_marked, Source.read, length_narrow] at hread
  rw [toList_synthesize, withSpaces, ← wide_marked, Source.read]
  exact Reading.run_wider (.refl _) (Nat.lt_succ_self _) (Nat.lt_succ_self _) h hread

/-- Where each authored space is a piece of its own or adds to a bracket expression, the option
makes the pattern's expression wider and changes nothing else in it. If what the pattern matches
depends on positions alone, it then compiles and accepts an answer if it did without the option,
unless it has grown too large or a search for a match is given up. -/
theorem ask_infiniteSpace {fragment : String} {fs : Flags} (h : SpacesApart fragment fs) :
    let off := synthesize fragment (withSpaces fs false)
    let on := synthesize fragment (withSpaces fs true)
    (∀ source, Source.read off.modes off.text.toList = .ok source →
      ∃ source', Source.read on.modes on.text.toList = .ok source' ∧ source.Wider source') ∧
    (off.positional = true → on.compile ≠ .error .tooLarge →
      ((∃ program, off.compile = .ok program) → ∃ program, on.compile = .ok program) ∧
      ∀ {c c' : Cache}, c.Faithful → c'.Faithful → ∀ subject,
        (Engine.regex.ask c off subject).1 = .ok true →
        (Engine.regex.ask c' on subject).1 = .ok true ∨ on.regular? = none ∧
          (Engine.regex.ask c' on subject).1 =
            .error (on.failure "the search for a match was given up")) := by
  intro off on
  refine ⟨fun source => h.read, fun hpositional hsize => ?_⟩
  obtain ⟨source, hread, hp⟩ := Pattern.exists_read_of_positional hpositional
  obtain ⟨source', hread', hwider⟩ := h.read hread
  refine ⟨?_, fun hc hc' subject => ?_⟩
  · rintro ⟨program, hcompile⟩
    exact Pattern.compile_wider hread hread' hwider hp hsize hcompile
  · rw [Engine.ask_regex hc, Engine.ask_regex hc']
    exact Pattern.matches_wider hread hread' hwider hp hsize

theorem ask_infiniteSpace_groups :
    let off := synthesize "\\b(?i:a b)?|([A-Z ]\\ d[^e])+ " (withSpaces {} false)
    let on := synthesize "\\b(?i:a b)?|([A-Z ]\\ d[^e])+ " (withSpaces {} true)
    SpacesApart "\\b(?i:a b)?|([A-Z ]\\ d[^e])+ " {} ∧
    off.positional = true ∧ on.compile ≠ .error .tooLarge ∧
    (Engine.regex.ask {} off "A B").1 = .ok true ∧ (Engine.regex.ask {} on "A B").1 = .ok true ∧
    (Engine.regex.ask {} on "A \t B").1 = .ok true := by
  intro off on
  have hs : SpacesApart "\\b(?i:a b)?|([A-Z ]\\ d[^e])+ " {} := by decide +kernel
  have hp : off.positional = true := by decide +kernel
  have hsize : on.compile ≠ .error .tooLarge := by decide +kernel
  have hoff : (Engine.regex.ask {} off "A B").1 = .ok true := by decide +kernel
  have hended : (Engine.regex.ask {} on "A B").1 ≠
      .error (on.failure "the search for a match was given up") := by decide +kernel
  have hon := ((ask_infiniteSpace hs).2 hp hsize).2 Cache.faithful_empty Cache.faithful_empty "A B"
  exact ⟨hs, hp, hsize, hoff, (hon hoff).resolve_right fun h => hended h.2, by decide +kernel⟩

/-- In a bracket expression the characters of the run of blanks are members of their own. -/
theorem ask_infiniteSpace_negatedSpace :
    let off := synthesize "[^ ]+" (withSpaces {} false)
    let on := synthesize "[^ ]+" (withSpaces {} true)
    Specification.diagnose .question "[[[^ ]+]]//" = [] ∧
    on.text = "^(?:[^(?:[ \\t]+)]+)$" ∧ off.regular?.isSome = true ∧ on.regular?.isSome = true ∧
    (Engine.regex.ask {} off "a+b").1 = .ok true ∧
    (Engine.regex.ask {} on "a+b").1 = .ok false := by
  decide +kernel

end Fragment

end AnswerGrading
