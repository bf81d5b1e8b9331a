import Spork.Guarantees.PlainBodies
import Spork.Llm.HtmlParser

/-!
# Markup that the parser accepts

`feed` returns exactly if every piece of the text is accepted (`feed_ok_iff_accepted`).  A piece is
a part of the text, so nothing can be wrong with a text that has neither a marked section nor an
oversized reference in it (`accepted_of_text`).

A text without a `<` is one piece, or none: `htmlParser_feedsPlainText`.
-/

set_option autoImplicit false

namespace Spork

open HtmlParser Backtracking
open Toml (isDigit)

variable {html5 : Html5}

/-! ## Pieces -/

/-- Handling the piece raises nothing. -/
def Piece.Accepted : Piece → Prop
  | .decoded text => ¬OversizedCharref text
  | .raw _ => True
  | .value text => ¬OversizedCharref text
  | .refused _ => False

theorem Piece.handle_ok_iff (html5 : Html5) (piece : Piece) :
    (∃ chunks, piece.handle html5 = .ok chunks) ↔ piece.Accepted := by
  have hmap : ∀ (f : String → List String) (text : List Char),
      (∃ chunks, (unescape html5 (String.ofList text)).map f = .ok chunks) ↔
        ¬OversizedCharref text := by
    intro f text
    rw [← String.toList_ofList (l := text), ← unescape_ok_iff html5, String.toList_ofList]
    cases unescape html5 (String.ofList text) with
    | ok data => exact iff_of_true ⟨_, rfl⟩ ⟨_, rfl⟩
    | error e => exact iff_of_false (by rintro ⟨_, ⟨⟩⟩) (by rintro ⟨_, ⟨⟩⟩)
  cases piece with
  | decoded text => exact hmap _ text
  | raw text => exact iff_of_true ⟨_, rfl⟩ trivial
  | value text => exact hmap _ text
  | refused message => exact iff_of_false (by rintro ⟨_, ⟨⟩⟩) id

theorem handle_all_ok_iff (html5 : Html5) : ∀ ps : List Piece,
    (∃ chunks, ps.mapM (Piece.handle html5) = .ok chunks) ↔ ∀ piece ∈ ps, piece.Accepted
  | [] => iff_of_true ⟨_, rfl⟩ nofun
  | piece :: ps => by
    rw [List.forall_mem_cons, ← handle_all_ok_iff html5 ps, ← piece.handle_ok_iff html5,
      List.mapM_cons]
    cases piece.handle html5 with
    | error e => exact iff_of_false (by rintro ⟨_, ⟨⟩⟩) (by rintro ⟨⟨_, ⟨⟩⟩, -⟩)
    | ok chunks =>
      cases ps.mapM (Piece.handle html5) with
      | error e => exact iff_of_false (by rintro ⟨_, ⟨⟩⟩) (by rintro ⟨-, _, ⟨⟩⟩)
      | ok rest => exact iff_of_true ⟨_, rfl⟩ ⟨⟨_, rfl⟩, _, rfl⟩

/-- **`feed` returns exactly if every piece is accepted.** -/
theorem feed_ok_iff_accepted (html5 : Html5) (s : String) :
    (∃ chunks, (htmlParser html5).feed s = .ok chunks) ↔
      ∀ piece ∈ pieces s.toList, piece.Accepted := by
  rw [← handle_all_ok_iff html5, htmlParser]
  dsimp only
  cases (pieces s.toList).mapM (Piece.handle html5) with
  | ok chunks => exact iff_of_true ⟨_, rfl⟩ ⟨_, rfl⟩
  | error e => exact iff_of_false (by rintro ⟨_, ⟨⟩⟩) (by rintro ⟨_, ⟨⟩⟩)

/-! ## Plain text -/

theorem pieces_plain {cs : List Char} (h : '<' ∉ cs) :
    pieces cs = if endsInCharref (String.ofList cs) then [] else textPieces none cs := by
  rw [pieces, goahead, textInFront, if_neg h]
  split
  · next hkept =>
    split at hkept
    · next hends => rw [if_pos hends]
    · cases hkept
  · next hpassed =>
    split at hpassed
    · cases hpassed
    · next hends =>
      cases hpassed
      rw [if_neg hends, List.append_nil]

/-- **A text without a `<`** is passed on decoded, as a whole, unless it is kept. -/
theorem htmlParser_feedsPlainText (html5 : Html5) :
    (htmlParser html5).FeedsPlainText html5 where
  passes s hs hends := by
    rw [htmlParser]
    dsimp only
    rw [pieces_plain hs, String.ofList_toList, hends, if_neg Bool.false_ne_true, textPieces]
    split
    · next hnil =>
      rw [String.toList_eq_nil_iff] at hnil
      subst hnil
      rfl
    · rw [Option.isSome_none, if_neg Bool.false_ne_true, List.mapM_cons, Piece.handle,
        String.ofList_toList]
      cases unescape html5 s with
      | ok text => exact congrArg Except.ok String.empty_append
      | error e => rfl
  buffers s hs hends := by
    rw [htmlParser]
    dsimp only
    rw [pieces_plain hs, String.ofList_toList, if_pos hends]
    rfl

/-! ## Pieces are parts of the text -/

/-- What is decoded is a part of the text, and what is refused is a marked section in it. -/
def Piece.Within (text : List Char) : Piece → Prop
  | .decoded part => part <:+: text
  | .raw _ => True
  | .value part => part <:+: text
  | .refused _ => "<![".toList <:+: text

theorem Piece.Within.mono {piece : Piece} {part text : List Char} (h : piece.Within part)
    (hpart : part <:+: text) : piece.Within text := by
  cases piece with
  | raw => trivial
  | decoded | value | refused => exact List.IsInfix.trans h hpart

theorem unquote_isInfix (value : List Char) : unquote value <:+: value := by
  rw [unquote]
  split
  · exact (List.dropLast_prefix _).isInfix.trans (List.tail_suffix _).isInfix
  · exact List.infix_rfl

theorem within_attributes (endLength : Nat) : ∀ (n : Nat) (pt : Point) {text : List Char},
    pt.rest <:+: text → ∀ piece ∈ (attributes endLength n pt).1, piece.Within text
  | 0, _, _, _, _, hm => by cases hm
  | n + 1, pt, text, hpt, piece, hm => by
    rw [attributes] at hm
    split at hm
    · cases hm
    · split at hm
      · cases hm
      · next stop hstop =>
        have htakes := takes_of_matchAt hstop
        rcases List.mem_append.1 hm with hm | hm
        · rw [foundValue] at hm
          split at hm
          · cases hm
          · next found hfound =>
            split at hm
            · cases hm
            · rw [List.mem_singleton.1 hm]
              obtain ⟨before, after, hgroups, -⟩ := List.lookup_eq_some_iff.1 hfound
              have hmem : (3, found) ∈ stop.groups := by
                rw [hgroups]
                exact List.mem_append_right before List.mem_cons_self
              have hgroup := (htakes.groups _ hmem).resolve_left nofun
              exact (unquote_isInfix found).trans (hgroup.trans hpt)
        · exact within_attributes endLength n stop (htakes.suffix.isInfix.trans hpt) piece hm

theorem within_parseStarttag (cs : List Char) :
    ∀ piece ∈ (parseStarttag cs).pieces, piece.Within cs := by
  intro piece hm
  rw [parseStarttag] at hm
  split at hm
  · next endpos stop _ hstop =>
    have hrest : stop.rest <:+: cs :=
      (takes_of_matchAt hstop).suffix.isInfix.trans (List.tail_suffix cs).isInfix
    have hvalues := within_attributes (cs.length - endpos) cs.length stop hrest
    dsimp only at hm
    split at hm
    · exact hvalues piece hm
    · split at hm
      · exact hvalues piece hm
      · rcases List.mem_append.1 hm with hm | hm
        · exact hvalues piece hm
        · rw [List.mem_singleton.1 hm]
          trivial
  · cases hm

theorem within_upTo (k : Option Nat) (cs : List Char) :
    ∀ piece ∈ (Construct.upTo k).pieces, piece.Within cs := by
  cases k <;> exact nofun

theorem within_parseEndtag (cdataElem : Option (List Char)) (cs : List Char) :
    ∀ piece ∈ (parseEndtag cdataElem cs).pieces, piece.Within cs := by
  have hskipped : ∀ {text : List Char} {next : Option (Option (List Char) × Nat)},
      ∀ piece ∈ (Construct.mk [.raw text] next).pieces, piece.Within cs := by
    intro text next piece hm
    rw [List.mem_singleton.1 hm]
    trivial
  rw [parseEndtag]
  split
  · exact nofun
  · dsimp only
    split
    · split
      · exact hskipped
      · exact within_upTo _ cs
    · split
      · exact hskipped
      · split
        · exact within_upTo _ cs
        · split
          · exact within_upTo _ cs
          · exact within_upTo _ cs

theorem within_parseMarkedSection {cs : List Char} (h : "<![".toList <:+: cs) :
    ∀ piece ∈ (parseMarkedSection cs).pieces, piece.Within cs := by
  have hrefused : ∀ message, ∀ piece ∈ (Construct.refused message).pieces, piece.Within cs := by
    intro message piece hm
    rw [List.mem_singleton.1 hm]
    exact h
  rw [parseMarkedSection]
  split
  · exact nofun
  · dsimp only
    split
    · split
      · exact nofun
      · split
        · exact within_upTo _ cs
        · split
          · exact within_upTo _ cs
          · exact hrefused _
    · exact hrefused _

theorem within_markup (cdataElem : Option (List Char)) (cs : List Char) :
    ∀ piece ∈ (markup cdataElem cs).pieces, piece.Within cs := by
  rw [markup]
  split
  · exact within_parseStarttag cs
  · split
    · exact within_parseEndtag cdataElem cs
    · split
      · exact within_upTo _ cs
      · split
        · exact within_upTo _ cs
        · split
          · rw [parseHtmlDeclaration]
            split
            · next h => exact within_parseMarkedSection h.isInfix
            · split <;> exact within_upTo _ cs
          · split
            · intro piece hm
              rw [List.mem_singleton.1 hm]
              trivial
            · exact nofun

theorem within_textPieces (cdataElem : Option (List Char)) (text : List Char) :
    ∀ piece ∈ textPieces cdataElem text, piece.Within text := by
  intro piece hm
  rw [textPieces] at hm
  split at hm
  · cases hm
  · split at hm
    · rw [List.mem_singleton.1 hm]
      trivial
    · rw [List.mem_singleton.1 hm]
      exact List.infix_rfl

/-- The text in front of a construct, if it is decoded, and what follows it. -/
theorem isInfix_textInFront {cdataElem : Option (List Char)} {cs text rest : List Char}
    (h : textInFront cdataElem cs = some (text, rest)) :
    (cdataElem = none → text <:+: cs) ∧ rest <:+ cs := by
  cases cdataElem with
  | none =>
    rw [textInFront] at h
    split at h
    · cases h
      exact ⟨fun _ => (List.takeWhile_prefix _).isInfix, List.dropWhile_suffix _⟩
    · split at h
      · cases h
      · cases h
        exact ⟨fun _ => List.infix_rfl, List.nil_suffix⟩
  | some elem =>
    obtain ⟨found, -, he⟩ := Option.map_eq_some_iff.1 h
    cases he
    exact ⟨by rintro ⟨⟩, List.drop_suffix _ cs⟩

theorem within_goahead : ∀ (n : Nat) (cdataElem : Option (List Char)) (cs : List Char),
    ∀ piece ∈ goahead n cdataElem cs, piece.Within cs
  | 0, _, _, _, hm => by cases hm
  | n + 1, cdataElem, cs, piece, hm => by
    rw [goahead] at hm
    split at hm
    · cases hm
    · next text rest htext =>
      obtain ⟨hfront, hrest⟩ := isInfix_textInFront htext
      rcases List.mem_append.1 hm with hm | hm
      · cases cdataElem with
        | none => exact (within_textPieces none text piece hm).mono (hfront rfl)
        | some elem =>
          rw [textPieces] at hm
          split at hm
          · cases hm
          · rw [Option.isSome_some, if_pos rfl, List.mem_singleton] at hm
            rw [hm]
            trivial
      · cases rest with
        | nil => cases hm
        | cons lt behind =>
          dsimp only at hm
          rcases List.mem_append.1 hm with hm | hm
          · exact (within_markup cdataElem _ piece hm).mono hrest.isInfix
          · split at hm
            · cases hm
            · next k _ =>
              refine (within_goahead n _ _ piece hm).mono ?_
              exact (List.drop_suffix _ behind).isInfix.trans
                ((List.suffix_cons lt behind).isInfix.trans hrest.isInfix)

theorem OversizedCharref.mono {part text : List Char} (h : OversizedCharref part)
    (hpart : part <:+: text) : OversizedCharref text := by
  obtain ⟨front, back, rfl⟩ := hpart
  obtain ⟨before, rest, rfl, hlong⟩ := h
  refine ⟨front ++ before, rest ++ back, by simp, Nat.lt_of_lt_of_le hlong ?_⟩
  rw [List.takeWhile_append]
  split
  · next hall => rw [List.length_append, hall]; exact Nat.le_add_right _ _
  · exact Nat.le_refl _

/-- **A text without marked sections and oversized references is accepted.** -/
theorem accepted_of_text {text : List Char} (hsection : ¬"<![".toList <:+: text)
    (hcharref : ¬OversizedCharref text) : ∀ piece ∈ pieces text, piece.Accepted := by
  intro piece hm
  have hwithin := within_goahead (text.length + 1) none text piece hm
  cases piece with
  | decoded part => exact fun h => hcharref (h.mono hwithin)
  | raw part => trivial
  | value part => exact fun h => hcharref (h.mono hwithin)
  | refused message => exact hsection hwithin

end Spork
