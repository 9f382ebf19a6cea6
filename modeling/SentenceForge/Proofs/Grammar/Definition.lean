import SentenceForge.Grammar.Definition
import SentenceForge.Proofs.Text.Plain

/-!
# What a block defines

A block is cut in two behind its first `>`: the head, which should be the
name, and the rest, which holds the bodies. The reader gets there by
another way – it puts a semicolon behind the head, treats the blanks of
the whole block and cuts at every semicolon – but blanks may as well be
treated piece by piece, so the head in its plain form is the name and the
pieces of the rest in theirs are the bodies.

The two ways would part at a semicolon in the head, and there the block is
malformed: the name is cut short, and what is left of it does not close.
`Malformed` collects the ways in which a head fails to be a name, and a
block defines something exactly if it is not malformed (`ofBlock_eq_ok`,
`ofBlock_eq_error`).
-/

namespace SentenceForge

/-! ## The marks of the format

None of them is blank, so blanks may be treated before or after a text is
cut at one. -/

theorem Text.isBlank_open : Text.isBlank '<' = false := rfl

theorem Text.isBlank_close : Text.isBlank '>' = false := rfl

theorem Text.isBlank_semicolon : Text.isBlank ';' = false := rfl

theorem Text.isBlank_brace : Text.isBlank '\x7d' = false := rfl

/-! ## Blocks, cut and read -/

/-- A fault of syntax. -/
def Fault.IsSyntax (f : Fault) : Prop := ∃ details, f.report = .badSyntax details

namespace Definition

/-- **The head of a block**: the text up to its first `>`, with it. -/
def head (block : Text) : Text := block.takeWhile (· != '>') ++ ['>']

/-- **The rest of a block**: the text behind its first `>`. -/
def rest (block : Text) : Text := (block.dropWhile (· != '>')).tail

/-- Fragments without the last, if that is blank. -/
def withoutBlankLast (fragments : List Text) : List Text :=
  if fragments.getLast? = some [] then fragments.dropLast else fragments

/-- **The bodies in a text**: its pieces in their plain form, without the
last if that is blank. -/
def bodiesOf (s : Text) : List Text :=
  withoutBlankLast ((Text.pieces ';' s).map Text.plain)

/-- **A malformed block** has no `>`, or a head with a semicolon, or a
head whose plain form does not open with `<` or has nothing between its
brackets. -/
def Malformed (block : Text) : Prop :=
  '>' ∉ block ∨ ';' ∈ head block ∨ (Text.plain (head block)).head? ≠ some '<'
    ∨ (Text.plain (head block)).length < 3

instance : DecidablePred Malformed :=
  fun _ => inferInstanceAs (Decidable (_ ∨ _ ∨ _ ∨ _))

/-- What a block defines if it is not malformed: its head in its plain
form, with the bodies in its rest. -/
def read (block : Text) : Definition := ⟨Text.plain (head block), bodiesOf (rest block)⟩

/-! ## A block cut behind its head -/

theorem bne_close {h : Text} (hh : '>' ∉ h) : ∀ c ∈ h, (c != '>') = true :=
  fun _ hc => bne_iff_ne.2 fun e => hh (e ▸ hc)

theorem takeWhile_append_close {h : Text} (hh : '>' ∉ h) (r : Text) :
    (h ++ '>' :: r).takeWhile (· != '>') = h := by
  rw [List.takeWhile_append_of_pos (bne_close hh)]
  simp

theorem dropWhile_append_close {h : Text} (hh : '>' ∉ h) (r : Text) :
    (h ++ '>' :: r).dropWhile (· != '>') = '>' :: r := by
  rw [List.dropWhile_append_of_pos (bne_close hh)]
  simp

theorem head_append {h : Text} (hh : '>' ∉ h) (r : Text) :
    head (h ++ '>' :: r) = h ++ ['>'] := by
  rw [head, takeWhile_append_close hh]

theorem rest_append {h : Text} (hh : '>' ∉ h) (r : Text) : rest (h ++ '>' :: r) = r := by
  rw [rest, dropWhile_append_close hh, List.tail_cons]

/-- The fragments of a block, the first apart. -/
theorem withoutBlankEnd_cons (f : Text) {fs : List Text} (h : fs ≠ []) :
    withoutBlankEnd (f :: fs) = f :: withoutBlankLast fs := by
  obtain ⟨e, es, rfl⟩ := List.exists_cons_of_ne_nil h
  unfold withoutBlankEnd withoutBlankLast
  rw [List.getLast?_cons_cons]
  by_cases hlast : (e :: es).getLast? = some []
  · rw [if_pos hlast, if_pos (by simp [hlast])]
    rfl
  · rw [if_neg hlast, if_neg (by simp [hlast])]

/-- **The fragments of a block** are, in their plain form, what is in
front of its first semicolon, the inserted one among them, and the bodies
in what follows. -/
theorem fragments_eq {name rest p s : Text} (hcut : name ++ ';' :: rest = p ++ ';' :: s)
    (hp : ';' ∉ p) : fragments name rest = Text.plain p :: bodiesOf s := by
  have hne : (Text.pieces ';' s).map Text.plain ≠ [] := by
    rw [ne_eq, List.map_eq_nil_iff]
    exact Text.pieces_ne_nil ';' s
  unfold fragments
  rw [Text.map_trim_pieces_plain Text.isBlank_semicolon, hcut, Text.pieces_append_cons hp,
    List.map_cons, withoutBlankEnd_cons _ hne, bodiesOf]

/-! ## When a head is a name -/

/-- A fragment without `>` is no name. -/
theorem isName_plain_of_not_mem {p : Text} (hp : '>' ∉ p) : isName (Text.plain p) = false := by
  by_contra h
  have hlast : (Text.plain p).getLast? = some '>' := by
    simp only [isName, isReference, Bool.not_eq_false, Bool.and_eq_true] at h
    simpa using h.2.2
  exact hp ((Text.mem_plain Text.isBlank_close p).1 (List.mem_of_getLast? hlast))

/-- **A head is a name** if its plain form opens with `<` and has something
between its brackets. -/
theorem isName_plain_concat (h : Text) :
    isName (Text.plain (h ++ ['>'])) = true
      ↔ (Text.plain (h ++ ['>'])).head? = some '<' ∧ 3 ≤ (Text.plain (h ++ ['>'])).length := by
  have hlast : (Text.plain (h ++ ['>'])).getLast? = some '>' := by
    rw [Text.plain_concat Text.isBlank_close, List.getLast?_concat]
  unfold isName isReference
  simp only [hlast, Bool.and_eq_true, decide_eq_true_eq, beq_iff_eq, and_true]
  constructor
  · rintro ⟨hlen, -, hhead⟩
    exact ⟨hhead, hlen⟩
  · rintro ⟨hhead, hlen⟩
    exact ⟨hlen, by omega, hhead⟩

/-! ## Reading a block -/

/-- A block without `>` names nothing. -/
theorem ofBlock_of_not_mem {block : Text} (h : '>' ∉ block) :
    ofBlock block = .error (.unnamed block) := by
  have hdrop : block.dropWhile (· != '>') = [] := List.dropWhile_eq_nil_iff.2 (bne_close h)
  unfold ofBlock
  rw [hdrop]

/-- A block is read from its fragments. -/
theorem ofBlock_append {h : Text} (hh : '>' ∉ h) (r : Text) {p s : Text}
    (hcut : h ++ ['>'] ++ ';' :: r = p ++ ';' :: s) (hp : ';' ∉ p) :
    ofBlock (h ++ '>' :: r)
      = if isName (Text.plain p) = true then .ok ⟨Text.plain p, bodiesOf s⟩
        else .error (.malformedName (Text.plain p)) := by
  rw [ofBlock, dropWhile_append_close hh]
  simp only [takeWhile_append_close hh, fragments_eq hcut hp]

/-- **A block that is not malformed defines its head**, with the bodies in
its rest. -/
theorem ofBlock_eq_ok {block : Text} (h : ¬ Malformed block) :
    ofBlock block = .ok (read block) := by
  unfold read
  simp only [Malformed, not_or, not_not] at h
  obtain ⟨hclose, hsemi, hhead, hlen⟩ := h
  obtain ⟨p, r, rfl, hp⟩ := List.eq_append_cons_of_mem hclose
  rw [head_append hp] at hsemi hhead hlen ⊢
  rw [rest_append hp, ofBlock_append hp r rfl hsemi,
    if_pos ((isName_plain_concat p).2 ⟨hhead, by omega⟩)]

/-- **A malformed block is a fault of syntax.** -/
theorem ofBlock_eq_error {block : Text} (h : Malformed block) :
    ∃ f : Fault, f.IsSyntax ∧ ofBlock block = .error f := by
  by_cases hclose : '>' ∈ block
  · obtain ⟨p, r, rfl, hp⟩ := List.eq_append_cons_of_mem hclose
    rw [Malformed, head_append hp] at h
    by_cases hsemi : ';' ∈ p
    · -- the name is cut short at its first semicolon, and `>` stands behind that
      obtain ⟨q, q', rfl, hq⟩ := List.eq_append_cons_of_mem hsemi
      have hcut : q ++ ';' :: q' ++ ['>'] ++ ';' :: r = q ++ ';' :: (q' ++ '>' :: ';' :: r) := by
        simp
      have hclose' : '>' ∉ q := fun hm => hp (List.mem_append_left _ hm)
      refine ⟨.malformedName (Text.plain q), ⟨_, rfl⟩, ?_⟩
      rw [ofBlock_append hp r hcut hq, isName_plain_of_not_mem hclose',
        if_neg Bool.false_ne_true]
    · have hsemi' : ';' ∉ p ++ ['>'] := by simp [hsemi]
      have hname : ¬ isName (Text.plain (p ++ ['>'])) = true := by
        rw [isName_plain_concat]
        rintro ⟨hhead, hlen⟩
        rcases h with h | h | h | h
        · exact h hclose
        · exact hsemi' h
        · exact h hhead
        · omega
      refine ⟨.malformedName (Text.plain (p ++ ['>'])), ⟨_, rfl⟩, ?_⟩
      rw [ofBlock_append hp r rfl hsemi', if_neg hname]
  · exact ⟨.unnamed block, ⟨_, rfl⟩, ofBlock_of_not_mem hclose⟩

/-- **A definition that is read** was in a block that is not malformed. -/
theorem ofBlock_eq_ok_iff {block : Text} {d : Definition} :
    ofBlock block = .ok d ↔ ¬ Malformed block ∧ d = read block := by
  constructor
  · intro h
    have hwell : ¬ Malformed block := by
      intro hbad
      obtain ⟨f, -, hf⟩ := ofBlock_eq_error hbad
      rw [hf] at h
      cases h
    rw [ofBlock_eq_ok hwell] at h
    exact ⟨hwell, (Except.ok.inj h).symm⟩
  · rintro ⟨hwell, rfl⟩
    exact ofBlock_eq_ok hwell

/-! ## Reading a text -/

/-- If a block is malformed, there is a first that is. -/
theorem exists_first_malformed {bs : List Text} {b : Text} (hb : b ∈ bs) (hbad : Malformed b) :
    ∃ c, bs.find? (Malformed ·) = some c :=
  Option.isSome_iff_exists.1 (List.find?_isSome.2 ⟨b, hb, by simpa using hbad⟩)

/-- Blocks that are not malformed are all read. -/
theorem mapM_ofBlock_eq_ok {bs : List Text} (h : ∀ b ∈ bs, ¬ Malformed b) :
    bs.mapM ofBlock = .ok (bs.map read) := by
  induction bs with
  | nil => rfl
  | cons b bs ih =>
    rw [List.forall_mem_cons] at h
    rw [List.mapM_cons, ofBlock_eq_ok h.1, ih h.2]
    rfl

/-- Of several malformed blocks the first is the one reported. -/
theorem mapM_ofBlock_eq_error {bs : List Text} {b : Text} {f : Fault}
    (hb : bs.find? (Malformed ·) = some b) (hf : ofBlock b = .error f) :
    bs.mapM ofBlock = .error f := by
  induction bs with
  | nil => cases hb
  | cons c bs ih =>
    rw [List.mapM_cons]
    by_cases hc : Malformed c
    · rw [List.find?_cons_of_pos (by simpa using hc)] at hb
      obtain rfl := Option.some.inj hb
      rw [hf]
      rfl
    · rw [List.find?_cons_of_neg (by simpa using hc)] at hb
      rw [ofBlock_eq_ok hc, ih hb]
      rfl

/-- **A text without a malformed block is read block by block.** -/
theorem ofText_eq_ok {text : Text} (h : ∀ b ∈ blocks text, ¬ Malformed b) :
    ofText text = .ok ((blocks text).map read) := mapM_ofBlock_eq_ok h

/-- **A text with a malformed block has the fault of the first.** -/
theorem ofText_eq_error {text b : Text}
    (h : (blocks text).find? (Malformed ·) = some b) :
    ∃ f : Fault, f.IsSyntax ∧ ofBlock b = .error f ∧ ofText text = .error f := by
  have hbad : Malformed b := by simpa using List.find?_some h
  obtain ⟨f, hkind, hf⟩ := ofBlock_eq_error hbad
  exact ⟨f, hkind, hf, mapM_ofBlock_eq_error h hf⟩

end Definition

end SentenceForge
