import TapeLang.Target

/-! # Code in Rust -/

namespace TapeLang

namespace TargetRust

def cellType : CellWidth → String
  | .eight => "u8"
  | .sixteen => "u16"
  | .thirtyTwo => "i32"

def declarations (config : Config) : String :=
  linesOf [
    "#![allow(dead_code, unused_imports, unused_mut, unused_variables)]",
    "use std::io::\x7bRead, Write\x7d;",
    "",
    "type Cell = " ++ cellType config.width ++ ";",
    "const TAPE_SIZE: usize = " ++ toString config.cellCount ++ ";",
    ""]

def routines : String :=
  linesOf [
    "fn bounds(what: &str) -> ! \x7b",
    "    let _ = std::io::stdout().flush();",
    "    eprintln!(\"Bounds error: \x7bwhat\x7d\");",
    "    std::process::exit(1)",
    "\x7d",
    "",
    "fn put(out: &mut impl Write, c: Cell) \x7b",
    "    let ch = char::from_u32(c as u32).unwrap_or(char::REPLACEMENT_CHARACTER);",
    "    let _ = write!(out, \"\x7bch\x7d\");",
    "\x7d",
    "",
    "fn get(out: &mut impl Write, input: &mut impl Iterator<Item = std::io::Result<u8>>) -> Cell \x7b",
    "    let _ = out.flush();",
    "    let Some(Ok(first)) = input.next() else \x7b",
    "        return 0;",
    "    \x7d;",
    "    let (mut code, extra) = match first \x7b",
    "        0xF0.. => ((first & 0x07) as u32, 3),",
    "        0xE0.. => ((first & 0x0F) as u32, 2),",
    "        0xC0.. => ((first & 0x1F) as u32, 1),",
    "        _ => (first as u32, 0),",
    "    \x7d;",
    "    for _ in 0..extra \x7b",
    "        match input.next() \x7b",
    "            Some(Ok(b)) => code = (code << 6) | (b & 0x3F) as u32,",
    "            _ => break,",
    "        \x7d",
    "    \x7d",
    "    code as Cell",
    "\x7d",
    ""]

def shiftRoutine : BoundsPolicy → String
  | .wrap => linesOf [
    "fn shift(p: usize, d: isize) -> usize \x7b",
    "    (p as isize + d).rem_euclid(TAPE_SIZE as isize) as usize",
    "\x7d",
    ""]
  | .fatal => linesOf [
    "fn shift(p: usize, d: isize) -> usize \x7b",
    "    let q = p as isize + d;",
    "    if q < 0 \x7b",
    "        bounds(\"the data pointer moved below cell 0\")",
    "    \x7d",
    "    if q >= TAPE_SIZE as isize \x7b",
    "        bounds(\"the data pointer moved past the last cell\")",
    "    \x7d",
    "    q as usize",
    "\x7d",
    ""]

def scanRoutines : BoundsPolicy → String
  | .wrap => linesOf [
    "fn scan_right(tape: &[Cell], p: usize) -> usize \x7b",
    "    if let Some(i) = tape[p..].iter().position(|c| *c == 0) \x7b",
    "        return p + i;",
    "    \x7d",
    "    match tape[..p].iter().position(|c| *c == 0) \x7b",
    "        Some(i) => i,",
    "        None => bounds(\"no cell on the tape is zero\"),",
    "    \x7d",
    "\x7d",
    "",
    "fn scan_left(tape: &[Cell], p: usize) -> usize \x7b",
    "    if let Some(i) = tape[..=p].iter().rposition(|c| *c == 0) \x7b",
    "        return i;",
    "    \x7d",
    "    match tape[p + 1..].iter().rposition(|c| *c == 0) \x7b",
    "        Some(i) => p + 1 + i,",
    "        None => bounds(\"no cell on the tape is zero\"),",
    "    \x7d",
    "\x7d",
    ""]
  | .fatal => linesOf [
    "fn scan_right(tape: &[Cell], p: usize) -> usize \x7b",
    "    match tape[p..].iter().position(|c| *c == 0) \x7b",
    "        Some(i) => p + i,",
    "        None => bounds(\"the data pointer moved past the last cell\"),",
    "    \x7d",
    "\x7d",
    "",
    "fn scan_left(tape: &[Cell], p: usize) -> usize \x7b",
    "    match tape[..=p].iter().rposition(|c| *c == 0) \x7b",
    "        Some(i) => i,",
    "        None => bounds(\"the data pointer moved below cell 0\"),",
    "    \x7d",
    "\x7d",
    ""]

def entry : String :=
  linesOf [
    "fn main() \x7b",
    "    let mut tape: Vec<Cell> = vec![0; TAPE_SIZE];",
    "    let mut p: usize = 0;",
    "    let mut out = std::io::stdout().lock();",
    "    let mut input = std::io::stdin().lock().bytes();"]

def opening (config : Config) : String :=
  declarations config ++ routines ++ shiftRoutine config.bounds ++ scanRoutines config.bounds ++
    entry

def addition (delta : Int) (width : CellWidth) : String :=
  let literal := match width with
    | .thirtyTwo => decimal delta
    | width => toString (unsignedDelta delta width)
  "tape[p] = tape[p].wrapping_add(" ++ literal ++ ");"

def fragment (i : Instruction) (config : Config) : String :=
  match i with
  | .op (.move offset) => "p = shift(p, " ++ decimal offset ++ ");"
  | .op (.add delta) => addition delta config.width
  | .op .output => "put(&mut out, tape[p]);"
  | .op .input => "tape[p] = get(&mut out, &mut input);"
  | .op .clear => "tape[p] = 0;"
  | .op (.scan .left) => "p = scan_left(&tape, p);"
  | .op (.scan .right) => "p = scan_right(&tape, p);"
  | .op .breakpoint => "// breakpoint"
  | .loopStart _ => "while tape[p] != 0 \x7b"
  | .loopEnd _ => "\x7d"

end TargetRust

def Target.rust : Target where
  name := "Rust"
  extension := "rs"
  opening := TargetRust.opening
  closing _ := "    let _ = out.flush();\n\x7d\n"
  fragment := TargetRust.fragment

end TapeLang
