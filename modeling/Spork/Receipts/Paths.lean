import Spork.Receipts.Archive
import Mathlib.Data.List.Chain
import Mathlib.Data.List.DropRight

/-!
# Paths and slugs

What the file name of a receipt may rely on.

* `PyPath.parent_join` computes the parent of `path / name`: it is `path` joined with the part of
  `name` up to its last `/`.
* `IsSlug` is what `_slugify` yields, and `slugify_of_isSlug` that it leaves such a text alone.
* `receiptFilename_eq` cuts a receipt's file name into the part of the date up to its last `/`, and
  a file name proper.
-/

set_option autoImplicit false

namespace Spork

open Effects

/-! ## Parents -/

/-- `path.parent`. -/
def PyPath.parent (path : PyPath) : PyPath := ⟨path.root, path.parts.dropLast⟩

/-- The text up to and including its last `/`. -/
def directoryPart (cs : List Char) : List Char := cs.rdropWhile (· ≠ '/')

/-- The text behind its last `/`. -/
def filePart (cs : List Char) : List Char := cs.rtakeWhile (· ≠ '/')

theorem directoryPart_append_filePart (cs : List Char) : directoryPart cs ++ filePart cs = cs :=
  List.rdropWhile_append_rtakeWhile

theorem slash_notMem_filePart (cs : List Char) : '/' ∉ filePart cs := by
  intro h
  have hne := List.mem_rtakeWhile_imp (p := fun c : Char => decide (c ≠ '/')) h
  exact of_decide_eq_true hne rfl

/-- A file part can be made longer. -/
theorem directoryPart_append {tail : List Char} (htail : '/' ∉ tail) (cs : List Char) :
    directoryPart (cs ++ tail) = directoryPart cs := by
  have hall : ∀ c ∈ tail.reverse, decide (c ≠ '/') = true := fun c hc =>
    decide_eq_true fun h => htail (h ▸ List.mem_reverse.1 hc)
  rw [directoryPart, List.rdropWhile, List.reverse_append, List.dropWhile_append_of_pos hall]
  rfl

theorem filePart_append {tail : List Char} (htail : '/' ∉ tail) (cs : List Char) :
    filePart (cs ++ tail) = filePart cs ++ tail := by
  have h := directoryPart_append_filePart (cs ++ tail)
  rw [directoryPart_append htail] at h
  refine List.append_cancel_left (h.trans ?_)
  rw [← List.append_assoc, directoryPart_append_filePart]

/-- A directory part is empty or ends with a `/`. -/
theorem directoryPart_cases (cs : List Char) :
    directoryPart cs = [] ∨ ∃ before, directoryPart cs = before ++ ['/'] := by
  rcases List.eq_nil_or_concat' (directoryPart cs) with h | ⟨before, c, h⟩
  · exact .inl h
  · have hc : ¬ decide (c ≠ '/') = true := by
      have hlast : ¬ decide ((directoryPart cs).getLast (by simp [h]) ≠ '/') = true :=
        List.rdropWhile_last_not (fun c : Char => decide (c ≠ '/')) cs _
      rwa [List.getLast_congr _ (by simp) h, List.getLast_append_singleton] at hlast
    exact .inr ⟨before, by rw [h, not_not.1 fun hne => hc (decide_eq_true hne)]⟩

theorem splitSlash_eq_singleton : ∀ {cs : List Char}, '/' ∉ cs → splitSlash cs = [cs]
  | [], _ => rfl
  | c :: cs, h => by
    rw [List.mem_cons, not_or] at h
    rw [splitSlash, splitSlash_eq_singleton h.2]
    exact if_neg (Ne.symm h.1)

/-- Behind a last `/`, nothing before it can tell what follows. -/
theorem splitSlash_slash : ∀ before : List Char, ∃ part parts, ∀ {file : List Char}, '/' ∉ file →
    splitSlash (before ++ '/' :: file) = part :: parts ++ [file]
  | [] => ⟨[], [], fun h => by
    rw [List.nil_append, splitSlash, splitSlash_eq_singleton h]
    exact if_pos rfl⟩
  | c :: before => by
    obtain ⟨part, parts, ih⟩ := splitSlash_slash before
    by_cases hc : c = '/'
    · refine ⟨[], part :: parts, fun h => ?_⟩
      rw [List.cons_append, splitSlash, ih h]
      exact if_pos hc
    · refine ⟨c :: part, parts, fun h => ?_⟩
      rw [List.cons_append, splitSlash, ih h]
      exact if_neg hc

/-- The components of a directory part, whatever file is named in it. -/
theorem splitSlash_directory (cs : List Char) : ∃ parts, ∀ {file : List Char}, '/' ∉ file →
    splitSlash (directoryPart cs ++ file) = parts ++ [file] := by
  rcases directoryPart_cases cs with h | ⟨before, h⟩
  · exact ⟨[], fun hfile => by rw [h, List.nil_append, splitSlash_eq_singleton hfile]; rfl⟩
  · obtain ⟨part, parts, hparts⟩ := splitSlash_slash before
    refine ⟨part :: parts, fun hfile => ?_⟩
    rw [h, List.append_assoc, List.singleton_append, hparts hfile]

/-- A path that names a file: its directory part, and one component more. -/
theorem PyPath.parse_file (cs : List Char) {file : List Char} (hslash : '/' ∉ file)
    (hfile : file ≠ []) (hdot : file ≠ ['.']) :
    PyPath.parse (String.ofList (directoryPart cs ++ file)) =
      ⟨(PyPath.parse (String.ofList (directoryPart cs))).root,
        (PyPath.parse (String.ofList (directoryPart cs))).parts ++ [String.ofList file]⟩ := by
  obtain ⟨parts, hparts⟩ := splitSlash_directory cs
  have hdir := hparts (show '/' ∉ [] from List.not_mem_nil)
  rw [List.append_nil] at hdir
  have hroot : (directoryPart cs ++ file).takeWhile (· = '/') =
      (directoryPart cs).takeWhile (· = '/') := by
    cases file with
    | nil => exact absurd rfl hfile
    | cons c file =>
      have hc : decide (c = '/') = false := decide_eq_false fun h => hslash (h ▸ List.mem_cons_self)
      rw [List.takeWhile_append, List.takeWhile_cons, hc]
      split
      · next hall =>
        rw [List.takeWhile_eq_self_iff.2 (List.takeWhile_eq_self_iff.1
          ((List.takeWhile_prefix _).eq_of_length hall))]
        simp
      · rfl
  have hkept : ([file].filter fun part => part ≠ [] ∧ part ≠ ['.']) = [file] := by
    simp [hfile, hdot]
  simp only [PyPath.parse, String.toList_ofList, hroot, hparts hslash, hdir, List.filter_append,
    List.map_append, hkept]
  simp

/-- **The parent of `path / name`** is `path` joined with the directory part of `name`. -/
theorem PyPath.parent_join (path : PyPath) (cs : List Char) {file : List Char} (hslash : '/' ∉ file)
    (hfile : file ≠ []) (hdot : file ≠ ['.']) :
    (path.join (String.ofList (directoryPart cs ++ file))).parent =
      path.join (String.ofList (directoryPart cs)) := by
  simp only [join, parse_file cs hslash hfile hdot]
  split
  · rw [parent]
    simp only [← List.append_assoc, List.dropLast_concat]
  · rw [parent, List.dropLast_concat]

/-- The last component of `path / name`. -/
theorem PyPath.parts_join (path : PyPath) (cs : List Char) {file : List Char} (hslash : '/' ∉ file)
    (hfile : file ≠ []) (hdot : file ≠ ['.']) :
    ∃ before, (path.join (String.ofList (directoryPart cs ++ file))).parts =
      before ++ [String.ofList file] := by
  simp only [join, parse_file cs hslash hfile hdot]
  split
  · exact ⟨_, (List.append_assoc _ _ _).symm⟩
  · exact ⟨_, rfl⟩

/-- Nothing follows the last `/` of a text that ends with one. -/
theorem filePart_of_slash {cs : List Char} (h : cs = [] ∨ ∃ before, cs = before ++ ['/']) :
    filePart cs = [] := by
  rcases h with rfl | ⟨before, rfl⟩
  · rfl
  · exact List.rtakeWhile_concat_neg _ _ _ (by decide)

theorem PyPath.root_parse (s : String) :
    (PyPath.parse s).root.toList = [] ∨
      ∃ before, (PyPath.parse s).root.toList = before ++ ['/'] := by
  rw [parse]
  dsimp only
  split
  · exact .inl rfl
  · exact .inr ⟨['/'], rfl⟩
  · exact .inr ⟨[], rfl⟩

theorem PyPath.root_join (outputDir name : String) :
    ((parse outputDir).join name).root.toList = [] ∨
      ∃ before, ((parse outputDir).join name).root.toList = before ++ ['/'] := by
  rw [join]
  split
  · exact root_parse outputDir
  · exact root_parse name

/-- Components joined by `/`: what stands before the last one ends with a `/`. -/
theorem intercalate_slash (last : String) : ∀ before : List String,
    ∃ front, (front = [] ∨ ∃ rest, front = rest ++ ['/']) ∧
      (String.intercalate "/" (before ++ [last])).toList = front ++ last.toList
  | [] => ⟨[], .inl rfl, rfl⟩
  | part :: before => by
    obtain ⟨front, hfront, heq⟩ := intercalate_slash last before
    refine ⟨part.toList ++ '/' :: front, .inr ?_, ?_⟩
    · rcases hfront with rfl | ⟨rest, rfl⟩
      · exact ⟨part.toList, rfl⟩
      · exact ⟨part.toList ++ '/' :: rest, by simp⟩
    · have hne : before ++ [last] ≠ [] := by simp
      rw [List.cons_append, String.intercalate_cons_of_ne_nil hne, String.toList_append,
        String.toList_append, heq]
      simp

/-- A path as text ends with its last component. -/
theorem PyPath.filePart_str {path : PyPath} {before : List String} {file : List Char}
    (hparts : path.parts = before ++ [String.ofList file]) (hslash : '/' ∉ file)
    (hroot : path.root.toList = [] ∨ ∃ rest, path.root.toList = rest ++ ['/']) :
    filePart path.str.toList = file := by
  obtain ⟨front, hfront, heq⟩ := intercalate_slash (String.ofList file) before
  rw [str, if_neg (by simp [hparts]), String.toList_append, hparts, heq, ← List.append_assoc,
    String.toList_ofList, filePart_append hslash, filePart_of_slash, List.nil_append]
  rcases hfront with rfl | ⟨rest, rfl⟩
  · rwa [List.append_nil]
  · exact .inr ⟨path.root.toList ++ rest, (List.append_assoc _ _ _).symm⟩

/-! ## Slugs -/

/-- A letter or digit that `_slugify` keeps. -/
def SlugChar (c : Char) : Prop := ('a' ≤ c ∧ c ≤ 'z') ∨ ('0' ≤ c ∧ c ≤ '9')

instance : DecidablePred SlugChar := fun _ => inferInstanceAs (Decidable (_ ∨ _))

/-- No two hyphens in a row. -/
abbrev SingleHyphens (cs : List Char) : Prop := cs.IsChain fun a b => ¬(a = '-' ∧ b = '-')

/-- What `_slugify` yields: words of lower-case letters and digits, joined by single hyphens. -/
structure IsSlug (cs : List Char) : Prop where
  ne_nil : cs ≠ []
  chars : ∀ c ∈ cs, SlugChar c ∨ c = '-'
  single : SingleHyphens cs
  head : cs.head? ≠ some '-'
  last : cs.getLast? ≠ some '-'

theorem not_slugChar_hyphen : ¬ SlugChar '-' := by decide

theorem hyphenate_keeps {c : Char} (h : SlugChar c) (replaced : Bool) (cs : List Char) :
    hyphenate replaced (c :: cs) = c :: hyphenate false cs := by
  rw [hyphenate]
  exact if_pos h

theorem hyphenate_replaces {c : Char} (h : ¬ SlugChar c) (replaced : Bool) (cs : List Char) :
    hyphenate replaced (c :: cs) =
      if replaced then hyphenate true cs else '-' :: hyphenate true cs := by
  rw [hyphenate]
  exact if_neg h

/-- Every character is kept or becomes a hyphen, and no hyphen follows a replaced character. -/
theorem hyphenate_shape : ∀ (replaced : Bool) (cs : List Char),
    (∀ c ∈ hyphenate replaced cs, SlugChar c ∨ c = '-') ∧ SingleHyphens (hyphenate replaced cs) ∧
      (replaced = true → (hyphenate replaced cs).head? ≠ some '-')
  | replaced, [] => by
    refine ⟨?_, ?_, ?_⟩ <;> simp [hyphenate, SingleHyphens]
  | replaced, c :: cs => by
    by_cases hc : SlugChar c
    · obtain ⟨hchars, hsingle, -⟩ := hyphenate_shape false cs
      rw [hyphenate_keeps hc]
      have hne : c ≠ '-' := fun h => not_slugChar_hyphen (h ▸ hc)
      refine ⟨List.forall_mem_cons.2 ⟨.inl hc, hchars⟩, ?_, fun _ h => hne (by simpa using h)⟩
      exact List.isChain_cons.2 ⟨fun _ _ h => hne h.1, hsingle⟩
    · obtain ⟨hchars, hsingle, hhead⟩ := hyphenate_shape true cs
      rw [hyphenate_replaces hc]
      cases replaced with
      | true => exact ⟨hchars, hsingle, hhead⟩
      | false =>
        refine ⟨List.forall_mem_cons.2 ⟨.inr rfl, hchars⟩, ?_, fun h => by cases h⟩
        exact List.isChain_cons.2 ⟨fun b hb h => hhead rfl (h.2 ▸ hb), hsingle⟩

/-- `.strip("-")` takes a piece out of the middle, and no hyphen is left at its ends. -/
theorem stripHyphens_shape (cs : List Char) :
    stripHyphens cs <:+: cs ∧ (stripHyphens cs).head? ≠ some '-' ∧
      (stripHyphens cs).getLast? ≠ some '-' := by
  have hstrip : stripHyphens cs = (cs.dropWhile (· = '-')).rdropWhile (· = '-') := rfl
  obtain ⟨dropped, hdropped⟩ := List.rdropWhile_prefix (· = '-') (cs.dropWhile (· = '-'))
  refine ⟨(List.rdropWhile_prefix _ _).isInfix.trans (List.dropWhile_suffix _).isInfix, ?_, ?_⟩
  · intro h
    have hhead := List.head?_dropWhile_not (fun c : Char => decide (c = '-')) cs
    rw [← hdropped, List.head?_append, ← hstrip, h] at hhead
    cases hhead
  · intro h
    have hne : stripHyphens cs ≠ [] := fun hnil => by
      rw [hnil] at h
      cases h
    have hlast : ¬ decide ((stripHyphens cs).getLast hne = '-') = true :=
      List.rdropWhile_last_not (fun c : Char => decide (c = '-')) _ _
    rw [List.getLast?_eq_getLast_of_ne_nil hne] at h
    exact hlast (decide_eq_true (Option.some_inj.1 h))

/-- `_slugify` yields a slug. -/
theorem isSlug_slugify (value : String) : IsSlug (slugify value).toList := by
  rw [slugify]
  split
  · exact ⟨by decide, List.forall_iff_forall_mem.1 (by decide), by decide, by decide, by decide⟩
  · next h =>
    obtain ⟨hchars, hsingle, -⟩ := hyphenate_shape false (pyLower value).toList
    obtain ⟨hsub, hhead, hlast⟩ := stripHyphens_shape (hyphenate false (pyLower value).toList)
    rw [String.toList_ofList]
    exact ⟨h, fun c hc => hchars c (hsub.subset hc), hsingle.infix hsub, hhead, hlast⟩

theorem hyphenate_of_single : ∀ {replaced : Bool} {cs : List Char},
    (∀ c ∈ cs, SlugChar c ∨ c = '-') → SingleHyphens cs →
      (replaced = true → cs.head? ≠ some '-') → hyphenate replaced cs = cs
  | _, [], _, _, _ => rfl
  | replaced, c :: cs, hchars, hsingle, hhead => by
    obtain ⟨hc, hrest⟩ := List.forall_mem_cons.1 hchars
    obtain ⟨hnext, htail⟩ := List.isChain_cons.1 hsingle
    rcases hc with hc | rfl
    · rw [hyphenate_keeps hc, hyphenate_of_single hrest htail Bool.false_ne_true.elim]
    · rw [hyphenate_replaces not_slugChar_hyphen, if_neg fun h => hhead h rfl,
        hyphenate_of_single hrest htail fun _ h => hnext '-' (Option.mem_def.2 h) ⟨rfl, rfl⟩]

theorem stripHyphens_of_ends {cs : List Char} (hhead : cs.head? ≠ some '-')
    (hlast : cs.getLast? ≠ some '-') : stripHyphens cs = cs := by
  have hdrop : cs.dropWhile (· = '-') = cs := by
    cases cs with
    | nil => rfl
    | cons c cs => exact List.dropWhile_cons_of_neg fun h => hhead (by simpa using h)
  show (cs.dropWhile (· = '-')).rdropWhile (· = '-') = cs
  rw [hdrop, List.rdropWhile_eq_self_iff]
  intro hne h
  rw [List.getLast?_eq_getLast_of_ne_nil hne] at hlast
  exact hlast (congrArg some (of_decide_eq_true h))

theorem lowerLetter_of_slug {c : Char} (h : SlugChar c ∨ c = '-') :
    c ≠ 'Σ' ∧ Unicode.lowerLetter c = [c] := by
  have hlower : ∀ n : Fin 128, (SlugChar (Char.ofNat n) ∨ Char.ofNat n = '-') →
      Char.ofNat n ≠ 'Σ' ∧ Unicode.lowerLetter (Char.ofNat n) = [Char.ofNat n] := by
    decide +kernel
  have hascii : c.toNat < 128 := by
    rcases h with (⟨-, h⟩ | ⟨-, h⟩) | rfl
    · exact Nat.lt_of_le_of_lt (Char.le_def.1 h) (by decide)
    · exact Nat.lt_of_le_of_lt (Char.le_def.1 h) (by decide)
    · decide
  have hc := hlower ⟨c.toNat, hascii⟩
  rw [Char.ofNat_toNat] at hc
  exact hc h

/-- `_slugify` leaves a slug alone. -/
theorem slugify_of_isSlug {cs : List Char} (h : IsSlug cs) :
    slugify (String.ofList cs) = String.ofList cs := by
  have hlower : Unicode.lower cs = cs :=
    Unicode.lower_of_small fun c hc => lowerLetter_of_slug (h.chars c hc)
  rw [slugify, pyLower]
  simp only [String.toList_ofList, hlower]
  rw [hyphenate_of_single h.chars h.single Bool.false_ne_true.elim,
    stripHyphens_of_ends h.head h.last]
  exact if_neg h.ne_nil

/-- What stands before a hyphen in a slug is a slug. -/
theorem IsSlug.of_append_hyphen {before after : List Char} (h : IsSlug (before ++ '-' :: after)) :
    IsSlug before := by
  obtain ⟨hleft, -, hends⟩ := List.isChain_append.1 h.single
  have hne : before ≠ [] := by
    rintro rfl
    exact h.head rfl
  refine ⟨hne, fun c hc => h.chars c (List.mem_append_left _ hc), hleft, ?_, fun hlast => ?_⟩
  · have hhead := h.head
    rwa [List.head?_append_of_ne_nil _ hne] at hhead
  · exact hends '-' hlast '-' rfl ⟨rfl, rfl⟩

/-! ## The file of a receipt -/

/-- The file name proper: what `save_pdf` writes behind the last `/` of the date. -/
def receiptFile (messageId company date : String) : List Char :=
  filePart date.toList ++ ('-' :: (slugify company).toList ++ '-' :: (slugify messageId).toList ++
    ".pdf".toList)

theorem receiptFilename_eq (messageId company date : String) :
    receiptFilename messageId company date =
      String.ofList (directoryPart date.toList ++ receiptFile messageId company date) := by
  apply String.ext
  rw [receiptFilename, receiptFile, String.toList_ofList, ← List.append_assoc,
    directoryPart_append_filePart]
  simp

theorem slash_notMem_slug (value : String) : '/' ∉ (slugify value).toList := fun h => by
  rcases (isSlug_slugify value).chars _ h with h | h
  · exact absurd h (by decide)
  · exact absurd h (by decide)

theorem slash_notMem_receiptFile (messageId company date : String) :
    '/' ∉ receiptFile messageId company date := by
  simp [receiptFile, slash_notMem_filePart, slash_notMem_slug]

theorem receiptFile_length (messageId company date : String) :
    2 ≤ (receiptFile messageId company date).length := by
  simp [receiptFile]
  omega

/-- The path `save_pdf` writes to. -/
def savedPath (outputDir : PyPath) (messageId company date : String) : PyPath :=
  outputDir.join (receiptFilename messageId company date)

/-- The parent of a saved receipt: only the part of the date up to its last `/` matters. -/
theorem savedPath_parent (outputDir : PyPath) (messageId company date : String) :
    (savedPath outputDir messageId company date).parent =
      outputDir.join (String.ofList (directoryPart date.toList)) := by
  have hlength := receiptFile_length messageId company date
  rw [savedPath, receiptFilename_eq]
  refine PyPath.parent_join outputDir _ (slash_notMem_receiptFile messageId company date) ?_ ?_
  · exact fun h => by simp [h] at hlength
  · exact fun h => by simp [h] at hlength

/-- A saved receipt as text ends with its file name proper. -/
theorem filePart_savedPath (outputDir messageId company date : String) :
    filePart (savedPath (.parse outputDir) messageId company date).str.toList =
      receiptFile messageId company date := by
  have hlength := receiptFile_length messageId company date
  have hslash := slash_notMem_receiptFile messageId company date
  obtain ⟨before, hparts⟩ := PyPath.parts_join (.parse outputDir) date.toList hslash
    (fun h => by simp [h] at hlength) (fun h => by simp [h] at hlength)
  rw [← receiptFilename_eq] at hparts
  exact PyPath.filePart_str hparts hslash (PyPath.root_join outputDir _)

/-- `save_pdf` writes one file. -/
theorem savePdf_only (pdfBytes : List UInt8) (outputDir : PyPath)
    (messageId company date : String) :
    (savePdf pdfBytes outputDir messageId company date).Only
      (· = Op.writeBytes (savedPath outputDir messageId company date).str pdfBytes) := by
  refine Prog.Only.tryCatch ?_ fun e => .ite trivial trivial
  exact Prog.Only.bind (Prog.only_perform.2 rfl) fun _ => trivial

end Spork
