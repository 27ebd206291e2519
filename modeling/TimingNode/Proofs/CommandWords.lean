import TimingNode.Shell.Command

namespace TimingNode.Proofs.CommandWords

open TimingNode.Shell

def Blank (text : List Char) : Prop :=
  ∀ c ∈ text, isBlank c = true

def IsWord (text : List Char) : Prop :=
  text ≠ [] ∧ ∀ c ∈ text, isBlank c = false

instance (text : List Char) : Decidable (Blank text) :=
  List.decidableBAll (isBlank · = true) text

instance (text : List Char) : Decidable (IsWord text) :=
  have : Decidable (∀ c ∈ text, isBlank c = false) := List.decidableBAll (isBlank · = false) text
  inferInstanceAs (Decidable (_ ∧ _))

/-- Whether a run without a blank begins at a position of a text. -/
def beginsAt (text : List Char) (i : Nat) : Bool :=
  text[i]?.any (! isBlank ·) && (i == 0 || text[i - 1]?.any isBlank)

def runFrom (text : List Char) (i : Nat) : List Char :=
  (text.drop i).takeWhile (! isBlank ·)

/-- The longest runs without a blank, in the order in which they begin. -/
def maximalRuns (text : List Char) : List (List Char) :=
  ((List.range text.length).filter (beginsAt text)).map (runFrom text)

section Runs

/-- `beginsAt` for the rest of a text, where `free` says whether a run can begin at its head. -/
def beginsAfter (free : Bool) (text : List Char) : Nat → Bool
  | 0 => text[0]?.any (! isBlank ·) && free
  | i + 1 => text[i + 1]?.any (! isBlank ·) && text[i]?.any isBlank

def runsAfter (free : Bool) (text : List Char) : List (List Char) :=
  ((List.range text.length).filter (beginsAfter free text)).map (runFrom text)

theorem maximalRuns_eq (text : List Char) : maximalRuns text = runsAfter true text := by
  have hbegins : beginsAt text = beginsAfter true text := by
    funext i
    cases i with
    | zero => rfl
    | succ i => rfl
  rw [maximalRuns, hbegins, runsAfter]

theorem runsAfter_cons (free : Bool) (c : Char) (cs : List Char) :
    runsAfter free (c :: cs) =
      (if ! isBlank c && free then [c :: cs.takeWhile (! isBlank ·)] else []) ++
        runsAfter (isBlank c) cs := by
  have hbegins : beginsAfter free (c :: cs) ∘ Nat.succ = beginsAfter (isBlank c) cs := by
    funext i
    cases i with
    | zero => rfl
    | succ i => rfl
  have hrun : runFrom (c :: cs) ∘ Nat.succ = runFrom cs := rfl
  have hhead : beginsAfter free (c :: cs) 0 = (! isBlank c && free) := rfl
  rw [runsAfter, List.length_cons, List.range_succ_eq_map, List.filter_cons, List.filter_map,
    hbegins, hhead]
  split
  · rename_i hfree
    have hblank : isBlank c = false := by simp_all
    rw [List.map_cons, List.map_map, hrun, runFrom, List.drop_zero, List.takeWhile_cons_of_pos
      (by rw [hblank]; rfl)]
    rfl
  · rw [List.map_map, hrun, List.nil_append]
    rfl

theorem words_cons_of_blank {c : Char} (hblank : isBlank c = true) (cs : List Char) :
    words (c :: cs) = words cs := by
  rw [words, if_pos hblank]

theorem words_cons_of_not_blank {c : Char} (hblank : isBlank c = false) (cs : List Char) :
    words (c :: cs) =
      (c :: cs.takeWhile (! isBlank ·)) :: words (cs.dropWhile (! isBlank ·)) := by
  rw [words, hblank]
  rfl

theorem runsAfter_eq_words (text : List Char) :
    runsAfter true text = words text ∧
      runsAfter false text = words (text.dropWhile (! isBlank ·)) := by
  induction text with
  | nil => exact ⟨by rw [words]; rfl, by rw [List.dropWhile_nil, words]; rfl⟩
  | cons c cs ih =>
      obtain ⟨ihfree, ihinside⟩ := ih
      rw [runsAfter_cons, runsAfter_cons]
      cases hblank : isBlank c with
      | true =>
          rw [ihfree, List.dropWhile_cons_of_neg (by rw [hblank]; decide),
            words_cons_of_blank hblank]
          exact ⟨rfl, rfl⟩
      | false =>
          rw [ihinside, List.dropWhile_cons_of_pos (by rw [hblank]; rfl),
            words_cons_of_not_blank hblank]
          exact ⟨rfl, rfl⟩

theorem words_eq_maximalRuns (text : List Char) : words text = maximalRuns text := by
  rw [maximalRuns_eq]
  exact (runsAfter_eq_words text).1.symm

end Runs

section Layout

theorem words_append_of_blank {gap : List Char} (hgap : Blank gap) (rest : List Char) :
    words (gap ++ rest) = words rest := by
  induction gap with
  | nil => rfl
  | cons c cs ih =>
      rw [List.cons_append, words_cons_of_blank (hgap c List.mem_cons_self)]
      exact ih fun d hd => hgap d (List.mem_cons_of_mem c hd)

theorem words_eq_nil_iff (text : List Char) : words text = [] ↔ Blank text := by
  constructor
  · intro hnone
    induction text with
    | nil => exact fun c hc => absurd hc List.not_mem_nil
    | cons c cs ih =>
        cases hblank : isBlank c with
        | true =>
            rw [words_cons_of_blank hblank] at hnone
            exact List.forall_mem_cons.mpr ⟨hblank, ih hnone⟩
        | false =>
            rw [words_cons_of_not_blank hblank] at hnone
            cases hnone
  · intro hblank
    rw [← List.append_nil text, words_append_of_blank hblank, words]

theorem words_append_of_isWord {word rest : List Char} (hword : IsWord word)
    (hrest : ∀ c ∈ rest.head?, isBlank c = true) : words (word ++ rest) = word :: words rest := by
  obtain ⟨hne, hletters⟩ := hword
  obtain ⟨c, cs, rfl⟩ := List.exists_cons_of_ne_nil hne
  obtain ⟨hfirst, hothers⟩ := List.forall_mem_cons.mp hletters
  have hpositive : ∀ d ∈ cs, (! isBlank d) = true := by
    intro d hd
    rw [hothers d hd]
    rfl
  rw [List.cons_append, words_cons_of_not_blank hfirst, List.takeWhile_append_of_pos hpositive,
    List.dropWhile_append_of_pos hpositive]
  cases rest with
  | nil => rw [List.takeWhile_nil, List.append_nil, List.dropWhile_nil]
  | cons d ds =>
      simp only [List.takeWhile_cons, List.dropWhile_cons, hrest d rfl, Bool.not_true,
        Bool.false_eq_true, if_false, List.append_nil]

def separated (arguments : List (List Char × List Char)) : List Char :=
  arguments.flatMap fun argument => argument.1 ++ argument.2

theorem head?_separated {arguments : List (List Char × List Char)} {trail : List Char}
    (hgaps : ∀ argument ∈ arguments, argument.1 ≠ [] ∧ Blank argument.1) (htrail : Blank trail) :
    ∀ c ∈ (separated arguments ++ trail).head?, isBlank c = true := by
  cases arguments with
  | nil => exact fun c hc => htrail c (List.mem_of_mem_head? hc)
  | cons argument arguments =>
      obtain ⟨hne, hblank⟩ := hgaps argument List.mem_cons_self
      obtain ⟨d, ds, hgap⟩ := List.exists_cons_of_ne_nil hne
      rw [separated, List.flatMap_cons, hgap]
      rintro c hc
      obtain rfl := Option.some.inj hc
      exact hblank d (hgap ▸ List.mem_cons_self)

theorem words_separated {arguments : List (List Char × List Char)} {trail : List Char}
    (hgaps : ∀ argument ∈ arguments, argument.1 ≠ [] ∧ Blank argument.1)
    (hwords : ∀ argument ∈ arguments, IsWord argument.2) (htrail : Blank trail) :
    words (separated arguments ++ trail) = arguments.map Prod.snd := by
  induction arguments with
  | nil => exact (words_eq_nil_iff trail).mpr htrail
  | cons argument arguments ih =>
      obtain ⟨hgap, hgaps⟩ := List.forall_mem_cons.mp hgaps
      obtain ⟨hword, hwords⟩ := List.forall_mem_cons.mp hwords
      have hsplit : separated (argument :: arguments) ++ trail =
          argument.1 ++ (argument.2 ++ (separated arguments ++ trail)) := by
        simp only [separated, List.flatMap_cons, List.append_assoc]
      rw [hsplit, words_append_of_blank hgap.2,
        words_append_of_isWord hword (head?_separated hgaps htrail), ih hgaps hwords,
        List.map_cons]

end Layout

section Line

theorem ofLine_of_blank {line : String} (hblank : Blank line.toList) :
    Command.ofLine line = .ok none := by
  rw [Command.ofLine, (words_eq_nil_iff line.toList).mpr hblank, List.map_nil]

theorem ofLine_of_words {line : String} {name : List Char} {arguments : List (List Char)}
    (hwords : words line.toList = name :: arguments) :
    Command.ofLine line =
      if arguments.length ≤ 4 then
        .ok (some ⟨String.ofList name, arguments.map String.ofList⟩)
      else .error .tooManyArguments := by
  rw [Command.ofLine, hwords, List.map_cons]
  simp only [List.length_map, Command.maxArguments]

theorem map_toList_ofList (texts : List (List Char)) :
    (texts.map String.ofList).map String.toList = texts := by
  rw [List.map_map]
  exact (List.map_congr_left fun _ _ => String.toList_ofList).trans (List.map_id texts)

theorem map_ofList_toList (texts : List String) :
    (texts.map String.toList).map String.ofList = texts := by
  rw [List.map_map]
  exact (List.map_congr_left fun _ _ => String.ofList_toList).trans (List.map_id texts)

theorem ofLine_eq_none_iff (line : String) :
    Command.ofLine line = .ok none ↔ Blank line.toList := by
  constructor
  · intro h
    cases hwords : words line.toList with
    | nil => exact (words_eq_nil_iff line.toList).mp hwords
    | cons name arguments =>
        rw [ofLine_of_words hwords] at h
        split at h <;> cases h
  · exact ofLine_of_blank

theorem ofLine_eq_error_iff (line : String) (error : Error) :
    Command.ofLine line = .error error ↔
      error = .tooManyArguments ∧ 5 < (words line.toList).length := by
  cases hwords : words line.toList with
  | nil =>
      rw [ofLine_of_blank ((words_eq_nil_iff line.toList).mp hwords)]
      constructor
      · rintro ⟨⟩
      · rintro ⟨-, hlong⟩
        cases hlong
  | cons name arguments =>
      rw [ofLine_of_words hwords, List.length_cons]
      split
      · constructor
        · rintro ⟨⟩
        · rintro ⟨-, hlong⟩
          omega
      · constructor
        · rintro ⟨⟩
          exact ⟨rfl, by omega⟩
        · rintro ⟨rfl, -⟩
          rfl

theorem ofLine_eq_some_iff (line : String) (command : Command) :
    Command.ofLine line = .ok (some command) ↔
      (words line.toList).length ≤ 5 ∧
        words line.toList = (command.name :: command.arguments).map String.toList := by
  constructor
  · intro h
    cases hwords : words line.toList with
    | nil =>
        rw [ofLine_of_blank ((words_eq_nil_iff line.toList).mp hwords)] at h
        cases h
    | cons name arguments =>
        rw [ofLine_of_words hwords] at h
        split at h
        · cases h
          rw [List.map_cons, map_toList_ofList, String.toList_ofList, List.length_cons]
          exact ⟨by omega, rfl⟩
        · cases h
  · rintro ⟨hlength, hwords⟩
    rw [hwords, List.length_map, List.length_cons] at hlength
    rw [ofLine_of_words hwords, List.length_map, if_pos (by omega), map_ofList_toList,
      String.ofList_toList]

/-- A command is read again from any text that separates its words by blanks. -/
theorem ofLine_of_separated {lead name trail : String} {arguments : List (String × String)}
    (hlead : Blank lead.toList) (hname : IsWord name.toList) (htrail : Blank trail.toList)
    (harguments : ∀ argument ∈ arguments,
      argument.1 ≠ "" ∧ Blank argument.1.toList ∧ IsWord argument.2.toList)
    (hlength : arguments.length ≤ 4) :
    Command.ofLine (lead ++ name ++ String.join (arguments.map fun a => a.1 ++ a.2) ++ trail) =
      .ok (some ⟨name, arguments.map Prod.snd⟩) := by
  have hgaps : ∀ argument ∈ arguments.map fun a => (a.1.toList, a.2.toList),
      argument.1 ≠ [] ∧ Blank argument.1 := by
    rintro _ hargument
    obtain ⟨argument, hmem, rfl⟩ := List.mem_map.mp hargument
    obtain ⟨hne, hblank, -⟩ := harguments argument hmem
    exact ⟨fun hnil => hne (String.toList_eq_nil_iff.mp hnil), hblank⟩
  have hwords : ∀ argument ∈ arguments.map fun a => (a.1.toList, a.2.toList),
      IsWord argument.2 := by
    rintro _ hargument
    obtain ⟨argument, hmem, rfl⟩ := List.mem_map.mp hargument
    exact (harguments argument hmem).2.2
  have htext : (lead ++ name ++ String.join (arguments.map fun a => a.1 ++ a.2) ++
      trail).toList = lead.toList ++ (name.toList ++
        (separated (arguments.map fun a => (a.1.toList, a.2.toList)) ++ trail.toList)) := by
    simp only [String.toList_append, String.toList_join, separated, List.flatMap_map,
      List.append_assoc]
  rw [ofLine_eq_some_iff, htext, words_append_of_blank hlead,
    words_append_of_isWord hname (head?_separated hgaps htrail),
    words_separated hgaps hwords htrail]
  simp only [List.length_cons, List.length_map, List.map_cons, List.map_map]
  exact ⟨by omega, rfl⟩

end Line

/-- A line is read as its words. It is no command if it is blank, it is refused if it has more than
five words, and otherwise it is the command of its words in order. Whatever blanks a command of at
most four arguments is written with, it is read again. -/
theorem ofLine_reads_words :
    (∀ line : String,
      (Command.ofLine line = .ok none ↔ Blank line.toList) ∧
      (∀ error, Command.ofLine line = .error error ↔
        error = .tooManyArguments ∧ 5 < (maximalRuns line.toList).length) ∧
      ∀ command, Command.ofLine line = .ok (some command) ↔
        (maximalRuns line.toList).length ≤ 5 ∧
          maximalRuns line.toList = (command.name :: command.arguments).map String.toList) ∧
    ∀ (lead name trail : String) (arguments : List (String × String)),
      Blank lead.toList → IsWord name.toList → Blank trail.toList →
      (∀ argument ∈ arguments,
        argument.1 ≠ "" ∧ Blank argument.1.toList ∧ IsWord argument.2.toList) →
      arguments.length ≤ 4 →
      Command.ofLine
          (lead ++ name ++ String.join (arguments.map fun a => a.1 ++ a.2) ++ trail) =
        .ok (some ⟨name, arguments.map Prod.snd⟩) := by
  refine ⟨fun line => ⟨ofLine_eq_none_iff line, ?_, ?_⟩, ?_⟩
  · intro error
    rw [ofLine_eq_error_iff, words_eq_maximalRuns]
  · intro command
    rw [ofLine_eq_some_iff, words_eq_maximalRuns]
  · intro lead name trail arguments hlead hname htrail harguments hlength
    exact ofLine_of_separated hlead hname htrail harguments hlength

theorem ofLine_reads_words_spaced :
    let arguments :=
      [("\t\u00a0", "enable"), (" ", "now"), ("\u2003\u3000", "or"), ("\u0085", "never")]
    (∀ argument ∈ arguments,
      argument.1 ≠ "" ∧ Blank argument.1.toList ∧ IsWord argument.2.toList) ∧
      Command.ofLine
          ("\u3000" ++ "ptrack" ++ String.join (arguments.map fun a => a.1 ++ a.2) ++ "\n") =
        .ok (some ⟨"ptrack", ["enable", "now", "or", "never"]⟩) := by
  intro arguments
  have harguments : ∀ argument ∈ arguments,
      argument.1 ≠ "" ∧ Blank argument.1.toList ∧ IsWord argument.2.toList := by decide
  exact ⟨harguments, ofLine_reads_words.2 "\u3000" "ptrack" "\n" arguments (by decide) (by decide)
    (by decide) harguments (by decide)⟩

end TimingNode.Proofs.CommandWords
