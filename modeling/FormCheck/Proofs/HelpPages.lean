import FormCheck.Command.Basic
import FormCheck.Proofs.EscapeCodes

/-!
# Pages of help

A page of help is plain. It shows the texts of its sections and options with spaces and marks around
them, in either layout, and no escape character is in any of these.
-/
namespace FormCheck

open Text

/-- Whether an entry shows no escape character. -/
def HelpEntry.EscapeFree (entry : HelpEntry) : Prop :=
  Text.EscapeFree entry.term ∧ Text.EscapeFree entry.about

namespace OptionSpec

/-- Whether the texts of an option hold no escape character. -/
structure EscapeFree (option : OptionSpec) : Prop where
  letter : option.letter ≠ some '\x1b'
  name : Text.EscapeFree option.name
  about : Text.EscapeFree option.about
  preset : ∀ text, option.preset = some text → Text.EscapeFree text

variable {option : OptionSpec}

theorem EscapeFree.placeholder (h : option.EscapeFree) : Text.EscapeFree option.placeholder := by
  refine escapeFree_ofList fun hmem => ?_
  obtain ⟨c, hc, heq⟩ := List.mem_map.mp hmem
  have hne : c ≠ '\x1b' := by
    rintro rfl
    exact h.name hc
  split at heq
  · exact absurd heq (by decide)
  · exact toUpper_ne_escape hne heq

theorem EscapeFree.entry (h : option.EscapeFree) : option.entry.EscapeFree := by
  constructor
  · unfold OptionSpec.entry
    simp only [escapeFree_append]
    refine ⟨⟨⟨?_, by decide⟩, h.name⟩, ?_⟩
    · split
      next letter hletter =>
        have hne : letter ≠ '\x1b' := by
          rintro rfl
          exact h.letter hletter
        exact escapeFree_ofList (by simp [hne.symm])
      next => decide
    · split
      · exact escapeFree_append.mpr ⟨escapeFree_append.mpr ⟨by decide, h.placeholder⟩, by decide⟩
      · decide
  · refine escapeFree_append.mpr ⟨h.about, ?_⟩
    split
    next text htext =>
      have hpreset := h.preset text htext
      exact escapeFree_append.mpr ⟨escapeFree_append.mpr ⟨by decide, hpreset⟩, by decide⟩
    next => decide

end OptionSpec

namespace HelpSection

/-- Whether a list shows no escape character. -/
def EscapeFree (list : HelpSection) : Prop :=
  Text.EscapeFree list.title ∧ ∀ entry ∈ list.entries, entry.EscapeFree

theorem escapeFree_spaces (n : ℕ) : Text.EscapeFree (spaces n) :=
  escapeFree_ofList fun h => absurd (List.eq_of_mem_replicate h) (by decide)

theorem EscapeFree.text {list : HelpSection} (h : list.EscapeFree) : Text.EscapeFree list.text := by
  obtain ⟨htitle, hentries⟩ := h
  have hindent : Text.EscapeFree "  " := by decide
  have hend : Text.EscapeFree "\n" := by decide
  refine escapeFree_append.mpr ⟨escapeFree_append.mpr ⟨htitle, by decide⟩, escapeFree_join ?_⟩
  intro line hline
  obtain ⟨entry, hentry, rfl⟩ := List.mem_map.mp hline
  obtain ⟨hterm, habout⟩ := hentries entry hentry
  have hgap : Text.EscapeFree (if list.isWide then "\n" ++ spaces 10
      else spaces (list.width - entry.term.length + 2)) := by
    split
    · exact escapeFree_append.mpr ⟨hend, escapeFree_spaces _⟩
    · exact escapeFree_spaces _
  simp [hindent, hterm, hgap, habout, hend]

end HelpSection

theorem HelpPage.escapeFree_text {page : HelpPage} (habout : EscapeFree page.about)
    (husage : EscapeFree page.usage) (hsections : ∀ list ∈ page.sections, list.EscapeFree) :
    EscapeFree page.text := by
  have hlists : EscapeFree (String.join (page.sections.map fun list => "\n" ++ list.text)) := by
    refine escapeFree_join fun text htext => ?_
    obtain ⟨list, hlist, rfl⟩ := List.mem_map.mp htext
    exact escapeFree_append.mpr ⟨by decide, (hsections list hlist).text⟩
  have hcall : EscapeFree "\n\nUsage: " := by decide
  have hend : EscapeFree "\n" := by decide
  simp [text, habout, hcall, husage, hend, hlists]

namespace HelpTopic

open Invocation

variable (topic : HelpTopic)

-- Each text is decided on as a list of characters, since it would have to be decoded first.
theorem escapeFree_about : EscapeFree topic.about := by
  cases topic <;> exact escapeFree_ofList (by decide)

theorem escapeFree_usage : EscapeFree topic.usage := by
  cases topic <;> exact escapeFree_ofList (by decide)

theorem escapeFree_commands : ∀ entry ∈ topic.commands, entry.EscapeFree := by
  have hnames : ∀ entry ∈ topics, EscapeFree entry.1 := by decide
  cases topic
  case program =>
    exact List.forall_mem_map.mpr fun entry hentry =>
      ⟨hnames entry hentry, entry.2.escapeFree_about⟩
  all_goals exact fun entry hentry => absurd hentry List.not_mem_nil

theorem escapeFree_words : ∀ entry ∈ topic.words, entry.EscapeFree := by
  cases topic
  case program | fields => exact fun entry hentry => absurd hentry List.not_mem_nil
  all_goals
    exact List.forall_mem_singleton.mpr
      ⟨escapeFree_ofList (by decide), escapeFree_ofList (by decide)⟩

theorem escapeFree_options : ∀ option ∈ topic.options, option.EscapeFree := by
  have hoptions : ∀ option ∈ [configOption, verboseOption, helpOption, versionOption, schemaOption,
      exampleOption, formatOption, patternOption, labelOption, valueOption],
      option.EscapeFree := by
    simp only [List.forall_mem_cons, List.not_mem_nil, false_imp_iff, implies_true, and_true]
    and_intros
    all_goals refine ⟨by decide, escapeFree_ofList (by decide), escapeFree_ofList (by decide), ?_⟩
    all_goals rintro _ ⟨⟩
    all_goals exact escapeFree_ofList (by decide)
  simp only [List.forall_mem_cons] at hoptions
  cases topic <;> simp [options, hoptions]

/-- No page of help holds an escape character. -/
theorem escapeFree_page : EscapeFree topic.page.text := by
  refine HelpPage.escapeFree_text topic.escapeFree_about topic.escapeFree_usage fun list hlist => ?_
  obtain ⟨hlist, -⟩ := List.mem_filter.mp hlist
  simp only [List.mem_cons, List.not_mem_nil, or_false] at hlist
  rcases hlist with rfl | rfl | rfl
  · exact ⟨escapeFree_ofList (by decide), topic.escapeFree_commands⟩
  · exact ⟨escapeFree_ofList (by decide), topic.escapeFree_words⟩
  · exact ⟨escapeFree_ofList (by decide), List.forall_mem_map.mpr fun option hoption =>
      (topic.escapeFree_options option hoption).entry⟩

end HelpTopic
end FormCheck
