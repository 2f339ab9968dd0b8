import TapeLang.Console.Buffered

/-! # Requests to a buffered console

All that can be asked of a buffered console, with the answers. A read that would have to wait is
answered by `blocked` and changes nothing; it may be asked again later.
-/

namespace TapeLang.Buffered

inductive Request
  | write (tag : Tag) (text : String)
  | push (text : String)
  | close
  | read
  | release
  | clear
  | drain
  | reset
  | restart
  | output
  | text
  | messages
  | errors
  deriving DecidableEq, Repr

inductive Answer
  | done
  | char (c : Char)
  | endOfInput
  | blocked
  | segments (segments : List Segment)
  | drained (segments : List Segment)
  | text (text : String)
  | texts (texts : List String)
  deriving DecidableEq, Repr

def serve : Request → Buffered → Answer × Buffered
  | .write tag text, b => (.done, b.write tag text)
  | .push text, b => (.done, b.push text)
  | .close, b => (.done, b.close)
  | .read, b =>
    match b.read? with
    | some (some c, b) => (.char c, b)
    | some (none, b) => (.endOfInput, b)
    | none => (.blocked, b)
  | .release, b => (.done, b.release)
  | .clear, b => (.done, b.clear)
  | .drain, b =>
    let (segments, b) := b.drain
    (.drained segments, b)
  | .reset, b => (.done, b.reset)
  | .restart, b => (.done, b.restart)
  | .output, b => (.segments b.output, b)
  | .text, b => (.text b.text, b)
  | .messages, b => (.texts b.messages, b)
  | .errors, b => (.texts b.errors, b)

/-- Serve one request after another. -/
def serveAll : List Request → Buffered → List Answer × Buffered
  | [], b => ([], b)
  | request :: rest, b =>
    let (answer, b) := serve request b
    let (answers, b) := serveAll rest b
    (answer :: answers, b)

theorem serveAll_append (requests more : List Request) (b : Buffered) :
    serveAll (requests ++ more) b =
      ((serveAll requests b).1 ++ (serveAll more (serveAll requests b).2).1,
        (serveAll more (serveAll requests b).2).2) := by
  induction requests generalizing b with
  | nil => rfl
  | cons request rest ih => simp only [List.cons_append, serveAll, ih]

theorem serveAll_concat (requests : List Request) (request : Request) (b : Buffered) :
    serveAll (requests ++ [request]) b =
      ((serveAll requests b).1 ++ [(serve request (serveAll requests b).2).1],
        (serve request (serveAll requests b).2).2) :=
  serveAll_append requests [request] b

end TapeLang.Buffered
