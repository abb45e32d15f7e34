import SelectiveTrace.Format.Toml.Scalar
import SelectiveTrace.Format.Toml.Section

/-! TOML: documents read from text, statement by statement. A date counts as a table without
entries. -/
namespace SelectiveTrace.Toml

mutual

def value? (level : Nat) : Nat → List Char → Option (Document × List Char)
  | 0, _ => none
  | _ + 1, [] => none
  | n + 1, c :: cs =>
    if c = '"' ∨ c = '\'' then
      (string? c cs).map fun (s, rest) => (.str (String.ofList s), rest)
    else if c = '[' then
      if level = 0 then none
      else (items? (level - 1) n cs).map fun (ds, rest) => (.list ds, rest)
    else if c = '\x7b' then
      if level = 0 then none
      else
        match blanks cs with
        | '\x7d' :: rest => some (.table [], rest)
        | _ => (members? (level - 1) n cs []).map fun (es, rest) => (es.toDocument, rest)
    else if c = 't' ∨ c = 'f' then
      match c :: cs with
      | 't' :: 'r' :: 'u' :: 'e' :: rest => some (.bool true, rest)
      | 'f' :: 'a' :: 'l' :: 's' :: 'e' :: rest => some (.bool false, rest)
      | _ => none
    else
      match moment? (c :: cs) with
      | some rest => some (.table [], rest)
      | none => number? (c :: cs)

def items? (level : Nat) : Nat → List Char → Option (List Document × List Char)
  | 0, _ => none
  | n + 1, cs => do
    match ← gap? false cs with
    | ']' :: rest => return ([], rest)
    | cs =>
      let (d, rest) ← value? level n cs
      match ← gap? false rest with
      | ',' :: rest =>
        let (ds, rest) ← items? level n rest
        return (d :: ds, rest)
      | ']' :: rest => return ([d], rest)
      | _ => none

def members? (level : Nat) : Nat → List Char → Entries → Option (Entries × List Char)
  | 0, _, _ => none
  | n + 1, cs, es => do
    let (ks, rest) ← dottedKey? cs
    let (d, rest) ← value? level n (blanks (← after? '=' rest))
    let es ← es.put d true ks
    match blanks rest with
    | ',' :: rest => members? level n rest es
    | '\x7d' :: rest => return (es, rest)
    | _ => none

end

/-- The tables read so far, and the way to the open one. -/
structure Progress where
  entries : Entries := []
  current : List String := []

def Progress.header? (p : Progress) (isList : Bool) (cs : List Char) :
    Option (Progress × List Char) := do
  let (ks, rest) ← dottedKey? cs
  let rest ← after? ']' rest
  let rest ← if isList then after? ']' rest else pure rest
  let k ← ks.getLast?
  let change := if isList then Entries.addTable k else Entries.openTable k
  let entries ← p.entries.within change ks.dropLast
  return (⟨entries, ks⟩, ← lineEnd? rest)

def Progress.binding? (p : Progress) (cs : List Char) : Option (Progress × List Char) := do
  let (ks, rest) ← dottedKey? cs
  let cs := blanks (← after? '=' rest)
  let (d, rest) ← value? (nestingLimit - 1) (2 * cs.length + 2) cs
  let rest ← lineEnd? rest
  let entries ← p.entries.within (Entries.put d true ks) p.current
  return (⟨entries, p.current⟩, rest)

def Progress.statement? (p : Progress) (cs : List Char) : Option (Progress × List Char) :=
  match cs with
  | '[' :: '[' :: cs => p.header? true cs
  | '[' :: cs => p.header? false cs
  | '#' :: _ | '\n' :: _ | '\r' :: _ => (lineEnd? cs).map fun rest => (p, rest)
  | cs => p.binding? cs

def statements? : Nat → Progress → List Char → Option Entries
  | 0, _, _ => none
  | n + 1, p, cs =>
    match blanks cs with
    | [] => some p.entries
    | cs => do
      let (p, rest) ← p.statement? cs
      statements? n p rest

def parse (s : String) : Option Document :=
  let cs := match s.toList with
    | '\uFEFF' :: cs => cs
    | cs => cs
  (statements? (cs.length + 1) {} cs).map Entries.toDocument

end SelectiveTrace.Toml
