import Mustache.Proofs.Text.Line
import Mustache.Delimiters

/-!
# Texts as words and the white space around them

White space at the head of a text is passed over (`words_space`), and what
stands before the next white space is a word (`words_word`).  Every text that is
not white space alone has a first word (`words_cases`).  So a text has two words
exactly when it is these two with white space around them and between them
(`words_eq_pair_iff`).
-/

namespace Mustache.Text

/-- All characters are white space. -/
def IsSpace (text : Text) : Prop :=
  ∀ character ∈ text, isWhiteSpace character = true

/-- There are characters, and none of them is white space. -/
structure IsWord (text : Text) : Prop where
  nonempty : text ≠ []
  solid : ∀ character ∈ text, isWhiteSpace character = false

/--
The text is two words, with white space around them and at least one between
them.
-/
structure TwoWords (text first second : Text) : Prop where
  first_isWord : first.IsWord
  second_isWord : second.IsWord
  spaced :
    ∃ before between after : Text,
      text = before ++ (first ++ (between ++ (second ++ after))) ∧
      before.IsSpace ∧
      between.IsSpace ∧
      between ≠ [] ∧
      after.IsSpace

variable {text word rest space first second : Text}

theorem wordsFrom_solid
    (solid : ∀ character ∈ word, isWhiteSpace character = false)
    (pending rest : Text) :
    wordsFrom pending (word ++ rest) =
      wordsFrom (word.reverse ++ pending) rest := by
  induction word generalizing pending with
  | nil => rfl
  | cons character word ih =>
    rcases List.forall_mem_cons.1 solid with ⟨here, further⟩
    rw [List.cons_append, wordsFrom, if_neg (Bool.eq_false_iff.1 here),
      ih further]
    simp

/-- White space at the head of a text belongs to no word. -/
theorem words_space
    (isSpace : space.IsSpace)
    (rest : Text) :
    words (space ++ rest) = words rest := by
  induction space with
  | nil => rfl
  | cons character space ih =>
    rcases List.forall_mem_cons.1 isSpace with ⟨here, further⟩
    rw [words, List.cons_append, wordsFrom, if_pos here]
    exact ih further

theorem words_of_isSpace (isSpace : text.IsSpace) : words text = [] := by
  have all := words_space isSpace []
  rwa [List.append_nil] at all

/-- A word at the head of a text goes on to the next white space. -/
theorem words_word
    (isWord : word.IsWord)
    (ends : ∀ character ∈ rest.head?, isWhiteSpace character = true) :
    words (word ++ rest) = word :: words rest := by
  have nonempty : ¬word.reverse.isEmpty = true := by simpa using isWord.nonempty
  rw [words, wordsFrom_solid isWord.solid, List.append_nil]
  cases rest with
  | nil =>
    rw [wordsFrom, if_neg nonempty, List.reverse_reverse]
    rfl
  | cons character rest =>
    have isSpace := ends character rfl
    rw [wordsFrom, if_pos isSpace, if_neg nonempty, List.reverse_reverse, words,
      wordsFrom, if_pos isSpace]
    rfl

/-- A text is white space, or it has a first word. -/
theorem words_cases (text : Text) :
    text.IsSpace ∨
    ∃ space word rest : Text,
      text = space ++ (word ++ rest) ∧
      space.IsSpace ∧
      word.IsWord ∧
      (∀ character ∈ rest.head?, isWhiteSpace character = true) ∧
      words text = word :: words rest := by
  rcases all_or_split isWhiteSpace text with
    all | ⟨space, first, rest, rfl, isSpace, solid⟩
  · exact .inl all
  · refine .inr ?_
    rcases all_or_split (fun character => !isWhiteSpace character) rest with
      all | ⟨word, next, rest, rfl, isWord, ends⟩
    · have isWord : IsWord (first :: rest) :=
        ⟨List.cons_ne_nil _ _,
          List.forall_mem_cons.2 ⟨solid, by simpa using all⟩⟩
      have ends :
          ∀ character ∈ ([] : Text).head?, isWhiteSpace character = true :=
        nofun
      have isWords := words_word isWord ends
      rw [List.append_nil] at isWords
      exact ⟨space, first :: rest, [], by simp, isSpace, isWord, ends,
        (words_space isSpace _).trans isWords⟩
    · have isWord : IsWord (first :: word) :=
        ⟨List.cons_ne_nil _ _,
          List.forall_mem_cons.2 ⟨solid, by simpa using isWord⟩⟩
      have ends :
          ∀ character ∈ (next :: rest).head?,
            isWhiteSpace character = true := by
        simpa using ends
      exact ⟨space, first :: word, next :: rest, rfl, isSpace, isWord, ends,
        (words_space isSpace _).trans (words_word isWord ends)⟩

theorem isSpace_of_words (none : words text = []) : text.IsSpace := by
  rcases words_cases text with isSpace | ⟨_, _, _, _, _, _, _, isWords⟩
  · exact isSpace
  · rw [none] at isWords
    cases isWords

theorem TwoWords.words_eq (two : text.TwoWords first second) :
    words text = [first, second] := by
  rcases two.spaced with
    ⟨before, between, after, rfl, isBefore, isBetween, nonempty, isAfter⟩
  rcases List.exists_cons_of_ne_nil nonempty with ⟨space, spaces, rfl⟩
  have firstEnds : ∀ character ∈ (space :: spaces ++ (second ++ after)).head?,
      isWhiteSpace character = true := by
    simpa using isBetween space List.mem_cons_self
  have secondEnds : ∀ character ∈ after.head?, isWhiteSpace character = true :=
    fun character member => isAfter character (List.mem_of_head? member)
  rw [words_space isBefore, words_word two.first_isWord firstEnds,
    words_space isBetween, words_word two.second_isWord secondEnds,
    words_of_isSpace isAfter]

/--
A text has two words when it is these two with white space around and between
them.
-/
theorem words_eq_pair_iff :
    words text = [first, second] ↔ text.TwoWords first second := by
  refine ⟨fun isWords => ?_, TwoWords.words_eq⟩
  rcases words_cases text with
    isSpace | ⟨before, word, rest, rfl, isBefore, isWord, ends, split⟩
  · rw [words_of_isSpace isSpace] at isWords
    cases isWords
  rw [split] at isWords
  rcases List.cons_eq_cons.1 isWords with ⟨rfl, isRest⟩
  rcases words_cases rest with
    isSpace | ⟨between, other, after, rfl, isBetween, isOther, -, split⟩
  · rw [words_of_isSpace isSpace] at isRest
    cases isRest
  rw [split] at isRest
  rcases List.cons_eq_cons.1 isRest with ⟨rfl, isAfter⟩
  refine ⟨isWord, isOther, before, between, after, rfl, isBefore, isBetween, ?_,
    isSpace_of_words isAfter⟩
  rintro rfl
  rcases List.exists_cons_of_ne_nil isOther.nonempty with ⟨character, more, rfl⟩
  have isSpace := ends character rfl
  rw [isOther.solid character List.mem_cons_self] at isSpace
  cases isSpace

end Mustache.Text
