import SentenceForge.Text.Blank

/-!
# Blocks

A grammar file is prose with blocks in braces. A block opens at the first
`\x7b` outside blocks, takes the character after it whatever that is, and
closes at the next closing brace. So a block is never empty, an opening
brace inside a block is part of it, and a closing brace right after the
opening one is too.

A block that is never closed is no block, and nothing after its opening
brace is: a later block would need a closing brace that this one lacks.
This is why the scan needs no second attempt from a later opening brace.
-/

namespace SentenceForge

/-- Where the scan for blocks stands. -/
inductive BlockScan where
  /-- Between blocks. -/
  | outside
  /-- Right after an opening brace. -/
  | opened
  /-- Inside a block, of which these characters were read, last first. -/
  | inside (read : Text)

/-- The blocks of the rest of a text from where the scan stands. -/
def blocksFrom : BlockScan → Text → List Text
  | _, [] => []
  | .outside, c :: s =>
    if c = '\x7b' then blocksFrom .opened s else blocksFrom .outside s
  | .opened, c :: s => blocksFrom (.inside [c]) s
  | .inside read, c :: s =>
    if c = '\x7d' then read.reverse :: blocksFrom .outside s
    else blocksFrom (.inside (c :: read)) s

/-- **The blocks of a text**, without their braces, in order. -/
def blocks (text : Text) : List Text := blocksFrom .outside text

/-- The empty text has no blocks. -/
@[simp] theorem blocks_nil : blocks [] = [] := rfl

/-- A character before a block is prose unless it is an opening brace. -/
theorem blocks_cons_of_ne {c : Char} (h : c ≠ '\x7b') (s : Text) :
    blocks (c :: s) = blocks s := by
  simp [blocks, blocksFrom, h]

/-- What a scan inside a block makes of text up to the closing brace. -/
theorem blocksFrom_inside (read : Text) {s : Text} (h : '\x7d' ∉ s)
    (rest : Text) :
    blocksFrom (.inside read) (s ++ '\x7d' :: rest)
      = (read.reverse ++ s) :: blocks rest := by
  induction s generalizing read with
  | nil => simp [blocksFrom, blocks]
  | cons c s ih =>
    have hc : c ≠ '\x7d' := fun e => h (e ▸ List.mem_cons_self)
    simp [blocksFrom, hc, ih (c :: read) fun m => h (List.mem_cons_of_mem c m)]

/-- **A block is read up to the first closing brace after its first
character**, and the scan goes on behind it. -/
theorem blocks_block (c : Char) {s : Text} (h : '\x7d' ∉ s) (rest : Text) :
    blocks ('\x7b' :: c :: s ++ '\x7d' :: rest)
      = (c :: s) :: blocks rest := by
  simp [blocks, blocksFrom, blocksFrom_inside [c] h]

/-- A closing brace right after the opening one belongs to the block. -/
example : blocks "\x7b\x7da\x7d\x7bb\x7d".toList = ["\x7da".toList, ['b']] := by
  decide

end SentenceForge
