import DatanodeLedger.Ledger.Cursor
import DatanodeLedger.Service.Basic

/-! Cursors that stay open between requests. An open cursor keeps its volume. -/
namespace DatanodeLedger.Request

def openCursor (s : StorageRef) : Request CursorRef := make fun l => l.addCursor { storage := s }

def closeCursor (r : CursorRef) : Request PUnit := modifyLedger fun l => l.closeCursor r

/-- The next block of an open cursor; a closed one has none. -/
def advance (r : CursorRef) : Request (Option BlockRef) := do
  match (← ledger).cursor? r with
  | none => pure none
  | some cursor =>
    let (block, cursor) ← look fun l => cursor.next l
    modifyLedger fun l => l.setCursor r cursor
    pure block

end DatanodeLedger.Request
