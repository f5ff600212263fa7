-- The words of a name. Generated code spells a name in lower case and sets its words apart by
-- underscores, and that is all it does: the words put together are the name, the underscores of
-- the name stay where they are, and what is spelled so stays as it is. What comes out may be a
-- word of the language, and then the name of a field gets a mark.
import Mathlib.Data.List.Chain
import Mathlib.Data.String.Defs
import WireSchema.Native.Name

namespace WireSchema

namespace Text

/-! ## ASCII characters -/

section

variable {c : Char}

theorem toNat_lt_of_isAscii (h : c.isAscii) : c.toNat < 128 := of_decide_eq_true h

theorem isUpper_of_isAscii (h : c.isAscii) : isUpper c = c.isUpper :=
  if_pos (toNat_lt_of_isAscii h)

theorem isLower_of_isAscii (h : c.isAscii) : isLower c = c.isLower :=
  if_pos (toNat_lt_of_isAscii h)

theorem lowerForm_of_isAscii (h : c.isAscii) : lowerForm c = [c.toLower] :=
  if_pos (toNat_lt_of_isAscii h)

theorem isAscii_of_isUpper (h : c.isUpper) : c.isAscii := by
  have hcapital : 'A'.val ≤ c.val ∧ c.val ≤ 'Z'.val := of_decide_eq_true h
  have hlast : c.toNat ≤ 90 := UInt32.le_iff_toNat_le.1 hcapital.2
  exact decide_eq_true (by omega)

/-- What holds of each of the 128 ASCII characters holds of them all. -/
theorem forall_isAscii {P : Char → Prop} (h : ∀ n < 128, P (.ofNat n)) (hc : c.isAscii) : P c := by
  rw [← Char.ofNat_toNat c]
  exact h c.toNat (toNat_lt_of_isAscii hc)

theorem isAscii_toLower : c.isAscii → c.toLower.isAscii :=
  forall_isAscii (P := fun c => c.toLower.isAscii) (by decide +kernel)

theorem not_isUpper_toLower : c.isAscii → c.toLower.isUpper = false :=
  forall_isAscii (P := fun c => c.toLower.isUpper = false) (by decide +kernel)

theorem not_isLower_of_isUpper (h : c.isUpper) : ¬ c.isLower :=
  forall_isAscii (P := fun c => c.isUpper → ¬ c.isLower) (by decide +kernel)
    (isAscii_of_isUpper h) h

theorem toLower_of_not_isUpper (h : ¬ c.isUpper) : c.toLower = c :=
  dif_neg fun hcapital => h (decide_eq_true hcapital)

theorem eq_underscore_of_toLower (h : c.toLower = '_') : c = '_' := by
  by_cases hupper : c.isUpper
  · exact forall_isAscii (P := fun c => c.toLower = '_' → c = '_') (by decide +kernel)
      (isAscii_of_isUpper hupper) h
  · rwa [toLower_of_not_isUpper hupper] at h

theorem toLower_ne_underscore (h : c.isUpper) : c.toLower ≠ '_' := by
  intro hlower
  rw [eq_underscore_of_toLower hlower] at h
  cases h

end

/-! ## Words -/

/-- A text goes on with a new word: with a capital behind a lower-case letter or a digit, or with
the last capital of a row, which has a lower-case letter behind it. -/
inductive NewWord : List Char → List Char → Prop
  | turn {p c : Char} (before after : List Char) :
      p.isLower ∨ p.isDigit → c.isUpper → NewWord (before ++ [p]) (c :: after)
  | lastCapital {p c n : Char} (before after : List Char) :
      p.isUpper → c.isUpper → n.isLower → NewWord (before ++ [p]) (c :: n :: after)

/-- A text goes on with a capital, behind a character that is no underscore. -/
def Apart (before after : List Char) : Prop :=
  (∃ p, before.getLast? = some p ∧ p ≠ '_') ∧ ∃ c, after.head? = some c ∧ c.isUpper

/-- A text falls into words: each but the first is new behind the one before it, and nothing
inside a word is. -/
structure Words (text : List Char) (words : List (List Char)) : Prop where
  together : words.flatten = text
  parted : words.IsChain NewWord
  whole : ∀ word ∈ words, word ≠ [] ∧ ∀ before after, word = before ++ after →
    ¬ NewWord before after

/-- Words in lower case. -/
def lowered (words : List (List Char)) : List (List Char) := words.map (·.map Char.toLower)

/-- Whether a text goes on with a new word is told by one character before and two after. -/
theorem newWord_iff {before after : List Char} {c : Char} :
    NewWord before (c :: after) ↔ c.isUpper ∧ ∃ p, before.getLast? = some p ∧
      ((p.isLower ∨ p.isDigit) ∨ p.isUpper ∧ ∃ n, after.head? = some n ∧ n.isLower) := by
  constructor
  · intro h
    cases h with
    | turn before after hp hc => exact ⟨hc, _, List.getLast?_concat, .inl hp⟩
    | lastCapital before after hp hc hn =>
      exact ⟨hc, _, List.getLast?_concat, .inr ⟨hp, _, rfl, hn⟩⟩
  · rintro ⟨hc, p, hlast, hp⟩
    obtain ⟨before, rfl⟩ := List.getLast?_eq_some_iff.1 hlast
    rcases hp with hp | ⟨hp, n, hhead, hn⟩
    · exact .turn before after hp hc
    · obtain ⟨after, rfl⟩ := List.head?_eq_some_iff.1 hhead
      exact .lastCapital before after hp hc hn

namespace NewWord

variable {before after : List Char} {c : Char}

theorem starts (h : NewWord before after) : ∃ c rest, after = c :: rest ∧ c.isUpper := by
  cases h with
  | turn _ after _ hc => exact ⟨_, after, rfl, hc⟩
  | lastCapital _ after _ hc _ => exact ⟨_, _, rfl, hc⟩

theorem not_nil : ¬ NewWord before [] := by
  intro h
  obtain ⟨c, rest, hnil, -⟩ := h.starts
  cases hnil

theorem follows (h : NewWord before after) : before ≠ [] := by
  cases h with
  | turn before => exact List.concat_ne_nil _ before
  | lastCapital before => exact List.concat_ne_nil _ before

theorem apart (h : NewWord before after) : Apart before after := by
  obtain ⟨c, rest, rfl, hc⟩ := h.starts
  obtain ⟨-, p, hlast, hp⟩ := newWord_iff.1 h
  refine ⟨⟨p, hlast, ?_⟩, c, rfl, hc⟩
  rintro rfl
  exact absurd hp (by simp)

/-- What stands further in front does not matter. -/
theorem cons_iff (hne : before ≠ []) : NewWord (c :: before) after ↔ NewWord before after := by
  obtain ⟨d, before, rfl⟩ := List.exists_cons_of_ne_nil hne
  cases after with
  | nil => exact iff_of_false not_nil not_nil
  | cons n after => rw [newWord_iff, newWord_iff, List.getLast?_cons_cons]

/-- A single character cannot be cut. -/
theorem not_of_singleton (hsplit : [c] = before ++ after) : ¬ NewWord before after := by
  intro hcut
  obtain ⟨d, rest, rfl, -⟩ := hcut.starts
  rcases List.cons_eq_append_iff.1 hsplit with ⟨rfl, -⟩ | ⟨before, -, hrest⟩
  · exact hcut.follows rfl
  · exact absurd hrest.symm (by simp)

end NewWord

namespace Words

variable {text word : List Char} {words : List (List Char)} {c : Char}

theorem nil : Words [] [] where
  together := rfl
  parted := List.isChain_nil
  whole := fun _ hword => by cases hword

theorem single (c : Char) : Words [c] [[c]] where
  together := rfl
  parted := List.isChain_singleton _
  whole := by
    intro word hword
    obtain rfl := List.mem_singleton.1 hword
    exact ⟨List.cons_ne_nil c [], fun _ _ => NewWord.not_of_singleton⟩

/-- What comes after the first word does not start with a lower-case letter. -/
theorem not_isLower_rest (h : Words text (word :: words)) {n : Char}
    (hn : words.flatten.head? = some n) : ¬ n.isLower := by
  cases words with
  | nil => cases hn
  | cons next words =>
    obtain ⟨c, rest, rfl, hc⟩ := (List.isChain_cons_cons.1 h.parted).1.starts
    cases hn
    exact not_isLower_of_isUpper hc

/-- A text is a new word when its first word is one. What tells are two characters, and where the
word has only one there is no lower-case letter behind it. -/
theorem newWord_iff (h : Words text (word :: words)) (before : List Char) :
    NewWord before word ↔ NewWord before text := by
  have htext : word ++ words.flatten = text := h.together
  rw [← htext]
  obtain ⟨hne, -⟩ := h.whole word (List.mem_cons_self ..)
  obtain ⟨c, rest, rfl⟩ := List.exists_cons_of_ne_nil hne
  rw [List.cons_append, Text.newWord_iff, Text.newWord_iff]
  cases rest with
  | nil =>
    have hnone : ¬ ∃ n, words.flatten.head? = some n ∧ n.isLower :=
      fun ⟨n, hn, hlower⟩ => h.not_isLower_rest hn hlower
    simp [hnone]
  | cons n rest => rfl

/-- A character in front of a text is a word of its own when the text is new behind it. -/
theorem start (h : Words text (word :: words)) (hnew : NewWord [c] text) :
    Words (c :: text) ([c] :: word :: words) where
  together := congrArg (c :: ·) h.together
  parted := List.isChain_cons_cons.2 ⟨(h.newWord_iff [c]).2 hnew, h.parted⟩
  whole := by
    intro w hw
    rcases List.mem_cons.1 hw with rfl | hw
    · exact ⟨List.cons_ne_nil c [], fun _ _ => NewWord.not_of_singleton⟩
    · exact h.whole w hw

/-- A character in front of a text belongs to its first word otherwise. -/
theorem extend (h : Words text (word :: words)) (hsame : ¬ NewWord [c] text) :
    Words (c :: text) ((c :: word) :: words) := by
  obtain ⟨hne, hwhole⟩ := h.whole word (List.mem_cons_self ..)
  refine ⟨congrArg (c :: ·) h.together, ?_, fun w hw => ?_⟩
  · cases words with
    | nil => exact List.isChain_singleton _
    | cons next words =>
      obtain ⟨hnext, hlater⟩ := List.isChain_cons_cons.1 h.parted
      exact List.isChain_cons_cons.2 ⟨(NewWord.cons_iff hne).2 hnext, hlater⟩
  · rcases List.mem_cons.1 hw with rfl | hw
    · -- A cut of the longer word is in front of the old word, which is new then, or inside it.
      refine ⟨List.cons_ne_nil _ _, fun before after hsplit hcut => ?_⟩
      rcases List.cons_eq_append_iff.1 hsplit with ⟨rfl, -⟩ | ⟨before, rfl, rfl⟩
      · exact hcut.follows rfl
      · by_cases hbefore : before = []
        · subst hbefore
          exact hsame ((h.newWord_iff [c]).1 hcut)
        · exact hwhole before after rfl ((NewWord.cons_iff hbefore).1 hcut)
    · exact h.whole w (List.mem_cons_of_mem _ hw)

/-- Without the underscores between them the words are the text in lower case. -/
theorem flatten_lowered (h : Words text words) :
    (lowered words).flatten = text.map Char.toLower := by
  rw [← h.together, List.map_flatten]
  rfl

end Words

/-! ## Spelling by characters -/

/-- What stands in front of a character: an underscore where a word starts. -/
def mark (before : Option Char) (c : Char) (after : Option Char) : List Char :=
  if isUpper c && startsWord before after then ['_'] else []

section

variable {before after : Option Char} {p c d : Char} {cs : List Char}

theorem snakeChars_cons (hc : c.isAscii) :
    snakeChars before (c :: cs) =
      mark before c cs.head? ++ c.toLower :: snakeChars (some c) cs := by
  rw [snakeChars, mark, lowerForm_of_isAscii hc]
  by_cases hupper : isUpper c
  · simp [hupper]
  · have hlower : c.toLower = c :=
      toLower_of_not_isUpper (by rwa [← isUpper_of_isAscii hc])
    simp [hupper, hlower]

theorem mark_none (c : Char) (after : Option Char) : mark none c after = [] := by
  simp [mark, startsWord]

theorem mark_cases (hc : c.isAscii) (before after : Option Char) :
    mark before c after = [] ∨ c.isUpper ∧ mark before c after = ['_'] := by
  unfold mark
  split
  next h =>
    rw [Bool.and_eq_true, isUpper_of_isAscii hc] at h
    exact .inr ⟨h.1, rfl⟩
  · exact .inl rfl

theorem eq_underscore_of_mem_mark (h : d ∈ mark before c after) : d = '_' := by
  unfold mark at h
  split at h
  · exact List.mem_singleton.1 h
  · cases h

theorem startsWord_some (hp : p.isAscii) (hafter : ∀ n, after = some n → n.isAscii) :
    startsWord (some p) after = true ↔
      (p.isLower ∨ p.isDigit) ∨ p.isUpper ∧ ∃ n, after = some n ∧ n.isLower := by
  have hbehind : after.any isLower = true ↔ ∃ n, after = some n ∧ n.isLower := by
    cases after with
    | none => simp
    | some n => simp [isLower_of_isAscii (hafter n rfl)]
  by_cases hunderscore : p = '_'
  · subst hunderscore
    simp [startsWord]
  · rw [startsWord, isLower_of_isAscii hp, isUpper_of_isAscii hp]
    by_cases hturn : p.isLower ∨ p.isDigit
    · simp [hunderscore, hturn]
    · simp [hunderscore, hturn, hbehind]

/-- The characters that the spelling looks at are those that tell a new word. -/
theorem marked_iff (h : ∀ d ∈ p :: c :: cs, d.isAscii) :
    (isUpper c && startsWord (some p) cs.head?) = true ↔ NewWord [p] (c :: cs) := by
  have hp := h p (List.mem_cons_self ..)
  have hc := h c (List.mem_cons_of_mem p (List.mem_cons_self ..))
  have hbehind : ∀ n, cs.head? = some n → n.isAscii := fun n hn =>
    h n (List.mem_cons_of_mem p (List.mem_cons_of_mem c (List.mem_of_head? hn)))
  rw [newWord_iff, Bool.and_eq_true, isUpper_of_isAscii hc, startsWord_some hp hbehind]
  simp

theorem mark_of_newWord (h : ∀ d ∈ p :: c :: cs, d.isAscii) (hnew : NewWord [p] (c :: cs)) :
    mark (some p) c cs.head? = ['_'] := if_pos ((marked_iff h).2 hnew)

theorem mark_of_not_newWord (h : ∀ d ∈ p :: c :: cs, d.isAscii)
    (hsame : ¬ NewWord [p] (c :: cs)) : mark (some p) c cs.head? = [] :=
  if_neg (hsame ∘ (marked_iff h).1)

theorem intercalate_start (c : Char) (word : List Char) (words : List (List Char)) :
    ['_'].intercalate (lowered ([c] :: word :: words)) =
      c.toLower :: '_' :: ['_'].intercalate (lowered (word :: words)) := by
  simp [lowered]

theorem intercalate_extend (c : Char) (word : List Char) (words : List (List Char)) :
    ['_'].intercalate (lowered ((c :: word) :: words)) =
      c.toLower :: ['_'].intercalate (lowered (word :: words)) := by
  cases words with
  | nil => simp [lowered]
  | cons next words => simp [lowered]

/-- A text falls into words, and is spelled by them. In front of the first stands what the
character before the text asks for. -/
theorem exists_words_of_cons (h : ∀ d ∈ c :: cs, d.isAscii) :
    ∃ word words, Words (c :: cs) (word :: words) ∧ ∀ before, snakeChars before (c :: cs) =
      mark before c cs.head? ++ ['_'].intercalate (lowered (word :: words)) := by
  have hc := h c (List.mem_cons_self ..)
  -- A character is a word of its own or goes to the first word of what is behind it.
  induction cs generalizing c with
  | nil =>
    refine ⟨[c], [], Words.single c, fun before => ?_⟩
    rw [snakeChars_cons hc]
    simp [lowered, snakeChars]
  | cons d cs ih =>
    have hlater : ∀ e ∈ d :: cs, e.isAscii := fun e he => h e (List.mem_cons_of_mem c he)
    obtain ⟨word, words, hwords, hspelled⟩ := ih hlater (hlater d (List.mem_cons_self ..))
    by_cases hnew : NewWord [c] (d :: cs)
    · refine ⟨[c], word :: words, hwords.start hnew, fun before => ?_⟩
      rw [snakeChars_cons hc, hspelled, mark_of_newWord h hnew, intercalate_start]
      rfl
    · refine ⟨c :: word, words, hwords.extend hnew, fun before => ?_⟩
      rw [snakeChars_cons hc, hspelled, mark_of_not_newWord h hnew, intercalate_extend]
      rfl

theorem exists_words (h : ∀ d ∈ cs, d.isAscii) :
    ∃ words, Words cs words ∧ snakeChars none cs = ['_'].intercalate (lowered words) := by
  cases cs with
  | nil => exact ⟨[], Words.nil, rfl⟩
  | cons c cs =>
    obtain ⟨word, words, hwords, hspelled⟩ := exists_words_of_cons h
    refine ⟨word :: words, hwords, ?_⟩
    rw [hspelled, mark_none, List.nil_append]

/-! ## Capitals -/

theorem isUpper_of_mem_snakeChars (h : ∀ c ∈ cs, c.isAscii) (hd : d ∈ snakeChars before cs) :
    isUpper d = false := by
  induction cs generalizing before with
  | nil => cases hd
  | cons c cs ih =>
    have hc := h c (List.mem_cons_self ..)
    rw [snakeChars_cons hc, List.mem_append, List.mem_cons] at hd
    rcases hd with hmark | rfl | hrest
    · rw [eq_underscore_of_mem_mark hmark]
      rfl
    · rw [isUpper_of_isAscii (isAscii_toLower hc), not_isUpper_toLower hc]
    · exact ih (fun e he => h e (List.mem_cons_of_mem c he)) hrest

/-- Without capitals nothing is left to do, whatever the characters. -/
theorem snakeChars_of_not_isUpper (h : ∀ c ∈ cs, isUpper c = false) :
    snakeChars before cs = cs := by
  induction cs generalizing before with
  | nil => rfl
  | cons c cs ih =>
    rw [snakeChars, h c (List.mem_cons_self ..), ih fun d hd => h d (List.mem_cons_of_mem c hd)]
    rfl

/-! ## Underscores of the name -/

/-- Behind an underscore a name is spelled as if it began there. -/
theorem snakeChars_underscore (cs : List Char) : snakeChars (some '_') cs = snakeChars none cs := by
  cases cs <;> rfl

/-- In front of an underscore a name is spelled as if it ended there. -/
theorem startsWord_underscore (before : Option Char) (x y : List Char) :
    startsWord before (x ++ '_' :: y).head? = startsWord before x.head? := by
  cases x with
  | nil =>
    have hunderscore : isLower '_' = false := rfl
    cases before <;> simp [startsWord, hunderscore]
  | cons c x => rfl

theorem snakeChars_cons_underscore (before : Option Char) (y : List Char) :
    snakeChars before ('_' :: y) = '_' :: snakeChars none y := by
  rw [← snakeChars_underscore]
  rfl

/-- The parts of a name around an underscore are spelled each for itself. -/
theorem snakeChars_append_underscore (before : Option Char) (x y : List Char) :
    snakeChars before (x ++ '_' :: y) = snakeChars before x ++ '_' :: snakeChars none y := by
  induction x generalizing before with
  | nil => exact snakeChars_cons_underscore before y
  | cons c x ih =>
    rw [List.cons_append, snakeChars, snakeChars, startsWord_underscore, ih, List.append_assoc]

/-- The underscore between `a` and `b` is one of the name, and they are the spellings of what
stands around it there. -/
def Stays (before : Option Char) (cs a b : List Char) : Prop :=
  ∃ x y, cs = x ++ '_' :: y ∧ snakeChars before x = a ∧ snakeChars none y = b

theorem Stays.behind (before : Option Char) (hc : c.isAscii) {a b : List Char}
    (h : Stays (some c) cs a b) :
    Stays before (c :: cs) (mark before c cs.head? ++ c.toLower :: a) b := by
  obtain ⟨x, y, rfl, rfl, hy⟩ := h
  refine ⟨c :: x, y, rfl, ?_, hy⟩
  rw [snakeChars_cons hc, mark, mark, startsWord_underscore]

/-- An underscore of a spelling stays from the name, or a capital of the name is behind it. -/
theorem stays_or_starts_word (h : ∀ c ∈ cs, c.isAscii) {a b : List Char}
    (hspelled : snakeChars before cs = a ++ '_' :: b) :
    Stays before cs a b ∨ ∃ (c : Char) (rest : List Char), c.isUpper ∧ b = c.toLower :: rest := by
  induction cs generalizing before a with
  | nil => exact absurd hspelled.symm (by simp [snakeChars])
  | cons c cs ih =>
    have hc := h c (List.mem_cons_self ..)
    have hlater : ∀ d ∈ cs, d.isAscii := fun d hd => h d (List.mem_cons_of_mem c hd)
    rw [snakeChars_cons hc] at hspelled
    -- The underscore is the mark of this character, the character, or spelled behind it.
    rcases mark_cases hc before cs.head? with hmark | ⟨hupper, hmark⟩
    · rw [hmark, List.nil_append] at hspelled
      rcases List.cons_eq_append_iff.1 hspelled with ⟨rfl, hb⟩ | ⟨a', rfl, hrest⟩
      · injection hb with hhead hb
        obtain rfl := eq_underscore_of_toLower hhead.symm
        exact .inl ⟨[], cs, rfl, rfl, by rw [hb, snakeChars_underscore]⟩
      · refine (ih hlater hrest).imp_left fun hstays => ?_
        have hbehind := hstays.behind before hc
        rwa [hmark, List.nil_append] at hbehind
    · rw [hmark, List.singleton_append] at hspelled
      rcases List.cons_eq_append_iff.1 hspelled with ⟨rfl, hb⟩ | ⟨a', rfl, hrest⟩
      · injection hb with _ hb
        exact .inr ⟨c, _, hupper, hb⟩
      · rcases List.cons_eq_append_iff.1 hrest with ⟨rfl, hb⟩ | ⟨a'', rfl, hrest'⟩
        · injection hb with hhead _
          exact absurd hhead.symm (toLower_ne_underscore hupper)
        · refine (ih hlater hrest').imp_left fun hstays => ?_
          have hbehind := hstays.behind before hc
          rwa [hmark, List.singleton_append] at hbehind

theorem eq_cons_of_snakeChars (h : ∀ c ∈ cs, c.isAscii) {b : List Char}
    (hspelled : snakeChars none cs = '_' :: b) : ∃ y, cs = '_' :: y ∧ snakeChars none y = b := by
  cases cs with
  | nil => cases hspelled
  | cons c cs =>
    rw [snakeChars_cons (h c (List.mem_cons_self ..)), mark_none] at hspelled
    injection hspelled with hhead hb
    obtain rfl := eq_underscore_of_toLower hhead
    exact ⟨cs, rfl, by rw [← hb, snakeChars_underscore]⟩

theorem eq_concat_of_snakeChars (h : ∀ c ∈ cs, c.isAscii) {a : List Char}
    (hspelled : snakeChars none cs = a ++ ['_']) :
    ∃ x, cs = x ++ ['_'] ∧ snakeChars none x = a := by
  rcases stays_or_starts_word h hspelled with ⟨x, y, rfl, hx, hy⟩ | ⟨c, rest, -, hb⟩
  · cases y with
    | nil => exact ⟨x, rfl, hx⟩
    | cons c y =>
      have hc := h c (List.mem_append_right x (List.mem_cons_of_mem _ (List.mem_cons_self ..)))
      rw [snakeChars_cons hc, mark_none] at hy
      cases hy
  · cases hb

theorem eq_double_of_snakeChars (h : ∀ c ∈ cs, c.isAscii) {a b : List Char}
    (hspelled : snakeChars none cs = a ++ '_' :: '_' :: b) :
    ∃ x y, cs = x ++ '_' :: '_' :: y ∧ snakeChars none x = a ∧ snakeChars none y = b := by
  rcases stays_or_starts_word h hspelled with ⟨x, y, rfl, hx, hy⟩ | ⟨c, rest, hupper, hb⟩
  · obtain ⟨z, rfl, hz⟩ := eq_cons_of_snakeChars
      (fun c hc => h c (List.mem_append_right x (List.mem_cons_of_mem _ hc))) hy
    exact ⟨x, z, rfl, hx, hz⟩
  · injection hb with hhead _
    exact absurd hhead.symm (toLower_ne_underscore hupper)

end

/-! ## Spelled names -/

section

variable {name start rest : String}

theorem toList_snakeCase (name : String) : (snakeCase name).toList = snakeChars none name.toList :=
  String.toList_ofList

theorem snakeCase_eq_iff {s : String} :
    snakeCase name = s ↔ snakeChars none name.toList = s.toList := by
  rw [← String.toList_inj, toList_snakeCase]

theorem snakeCase_snakeCase (h : ∀ c ∈ name.toList, c.isAscii) :
    snakeCase (snakeCase name) = snakeCase name := by
  rw [snakeCase_eq_iff]
  refine snakeChars_of_not_isUpper fun c hc => ?_
  rw [toList_snakeCase] at hc
  exact isUpper_of_mem_snakeChars h hc

theorem starts_with_underscore_iff (h : ∀ c ∈ name.toList, c.isAscii) :
    snakeCase name = "_" ++ rest ↔ ∃ y, name = "_" ++ y ∧ snakeCase y = rest := by
  constructor
  · intro hspelled
    rw [snakeCase_eq_iff, String.toList_append] at hspelled
    obtain ⟨y, hname, hy⟩ := eq_cons_of_snakeChars h hspelled
    refine ⟨String.ofList y, String.toList_inj.1 ?_, snakeCase_eq_iff.2 ?_⟩
    · simpa using hname
    · simpa using hy
  · rintro ⟨y, rfl, rfl⟩
    rw [snakeCase_eq_iff]
    simp [toList_snakeCase, snakeChars_cons_underscore]

theorem ends_with_underscore_iff (h : ∀ c ∈ name.toList, c.isAscii) :
    snakeCase name = start ++ "_" ↔ ∃ x, name = x ++ "_" ∧ snakeCase x = start := by
  constructor
  · intro hspelled
    rw [snakeCase_eq_iff, String.toList_append] at hspelled
    obtain ⟨x, hname, hx⟩ := eq_concat_of_snakeChars h hspelled
    refine ⟨String.ofList x, String.toList_inj.1 ?_, snakeCase_eq_iff.2 ?_⟩
    · simpa using hname
    · simpa using hx
  · rintro ⟨x, rfl, rfl⟩
    rw [snakeCase_eq_iff]
    simp [toList_snakeCase, snakeChars_append_underscore, snakeChars]

theorem has_two_underscores_iff (h : ∀ c ∈ name.toList, c.isAscii) :
    snakeCase name = start ++ "__" ++ rest ↔
      ∃ x y, name = x ++ "__" ++ y ∧ snakeCase x = start ∧ snakeCase y = rest := by
  constructor
  · intro hspelled
    rw [snakeCase_eq_iff] at hspelled
    obtain ⟨x, y, hname, hx, hy⟩ := eq_double_of_snakeChars h (by simpa using hspelled)
    refine ⟨String.ofList x, String.ofList y, String.toList_inj.1 ?_, snakeCase_eq_iff.2 ?_,
      snakeCase_eq_iff.2 ?_⟩
    · simpa using hname
    · simpa using hx
    · simpa using hy
  · rintro ⟨x, y, rfl, rfl, rfl⟩
    rw [snakeCase_eq_iff]
    simp [toList_snakeCase, snakeChars_append_underscore, snakeChars_cons_underscore]

end

end Text

namespace Native

open Text

/-! ## Names of fields -/

theorem all_isAlpha_of_reserved :
    ∀ word ∈ keywords ++ pathWords, word.toList.all Char.isAlpha = true := by
  decide

theorem not_reserved_of_mem {name : String} {c : Char} (hc : c ∈ name.toList)
    (h : c.isAlpha = false) : name ∉ keywords ++ pathWords := by
  intro hname
  have hall := List.all_eq_true.1 (all_isAlpha_of_reserved name hname) c hc
  rw [h] at hall
  cases hall

/-- A word of the language gets a mark, and with it is none any more: all of them are made of
letters, and no mark is. -/
theorem escaped_not_reserved (name : String) : escaped name ∉ keywords ++ pathWords := by
  unfold escaped
  split
  · have hmark : '_' ∈ (name ++ "_").toList := by simp
    exact not_reserved_of_mem hmark rfl
  split
  · have hmark : '#' ∈ ("r#" ++ name).toList := by simp
    exact not_reserved_of_mem hmark rfl
  · simp_all

/-- A name of ASCII characters is spelled in lower case, and its words are set apart by single
underscores, each between a character that is no underscore and a capital. So no underscore is
new at the start, at the end or beside another, and what is spelled so stays as it is. The name
of a field is no word of the language, whatever the name. -/
theorem names_are_lowered_and_divided :
    (∀ name : String, (∀ c ∈ name.toList, c.isAscii) →
      (∀ c ∈ (snakeCase name).toList, isUpper c = false) ∧
      (∃ words, Words name.toList words ∧ words.IsChain Apart ∧
        (lowered words).flatten = name.toLower.toList ∧
        (snakeCase name).toList = ['_'].intercalate (lowered words)) ∧
      (∀ rest, snakeCase name = "_" ++ rest ↔ ∃ y, name = "_" ++ y ∧ snakeCase y = rest) ∧
      (∀ start, snakeCase name = start ++ "_" ↔ ∃ x, name = x ++ "_" ∧ snakeCase x = start) ∧
      (∀ start rest, snakeCase name = start ++ "__" ++ rest ↔
        ∃ x y, name = x ++ "__" ++ y ∧ snakeCase x = start ∧ snakeCase y = rest) ∧
      snakeCase (snakeCase name) = snakeCase name) ∧
    ∀ name, fieldName name ∉ keywords ∧ fieldName name ∉ pathWords := by
  refine ⟨fun name h => ⟨fun c hc => ?_, ?_, fun rest => starts_with_underscore_iff h,
    fun start => ends_with_underscore_iff h, fun start rest => has_two_underscores_iff h,
    snakeCase_snakeCase h⟩, fun name => ?_⟩
  · rw [toList_snakeCase] at hc
    exact isUpper_of_mem_snakeChars h hc
  · obtain ⟨words, hwords, hspelled⟩ := exists_words h
    refine ⟨words, hwords, hwords.parted.imp fun _ _ => NewWord.apart, ?_, ?_⟩
    · exact hwords.flatten_lowered.trans String.toList_map.symm
    · rw [toList_snakeCase, hspelled]
  · have hname := escaped_not_reserved (snakeCase name)
    rwa [List.mem_append, not_or] at hname

/-- A row of capitals, a digit and two underscores side by side, which are of the name. -/
theorem an_acronym_is_divided :
    (∀ c ∈ "HTTPCode2Go__Type".toList, c.isAscii) ∧
      snakeCase "HTTPCode2Go__Type" = "http_code2_go__type" ∧
      (∃ words, Words "HTTPCode2Go__Type".toList words ∧ words.IsChain Apart ∧
        (lowered words).flatten = "httpcode2go__type".toList ∧
        ['_'].intercalate (lowered words) = "http_code2_go__type".toList) ∧
      (∃ x y, "HTTPCode2Go__Type" = x ++ "__" ++ y ∧
        snakeCase x = "http_code2_go" ∧ snakeCase y = "type") ∧
      snakeCase "http_code2_go__type" = "http_code2_go__type" ∧
      fieldName "Type" = "r#type" ∧ fieldName "Type" ∉ keywords := by
  have hascii : ∀ c ∈ "HTTPCode2Go__Type".toList, c.isAscii := by simp [Char.isAscii]
  have hspelled : snakeCase "HTTPCode2Go__Type" = "http_code2_go__type" := by decide +kernel
  have hlower : "HTTPCode2Go__Type".toLower = "httpcode2go__type" := by decide +kernel
  have hparts : "http_code2_go__type" = "http_code2_go" ++ "__" ++ "type" := by decide +kernel
  have hfield : fieldName "Type" = "r#type" := by decide +kernel
  obtain ⟨hnames, hfields⟩ := names_are_lowered_and_divided
  obtain ⟨-, ⟨words, hwords, hapart, hlowered, hjoined⟩, -, -, hdouble, hagain⟩ :=
    hnames "HTTPCode2Go__Type" hascii
  rw [hspelled] at hjoined hdouble hagain
  rw [hlower] at hlowered
  exact ⟨hascii, hspelled, ⟨words, hwords, hapart, hlowered, hjoined.symm⟩,
    (hdouble "http_code2_go" "type").1 hparts, hagain, hfield, (hfields "Type").1⟩

end Native

end WireSchema
