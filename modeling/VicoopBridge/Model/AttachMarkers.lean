import VicoopBridge.Library.InsertionMap
import VicoopBridge.Library.Words
import VicoopBridge.Model.FederatedPrincipal

/-! # The markers of attachments

How an agent names a file in its text, and how the names are taken out once the file has been
read. -/

namespace VicoopBridge

open Library

structure ParsedAttachMarkers where
  cleanedText : JsText
  paths : List JsText
  markersByPath : InsertionMap JsText (List JsText)

namespace AttachMarkers

def newline : UInt16 := 0xA

def closing : UInt16 := 0x5D

def opening : JsText := JsText.ofAscii "[bridge-attach:"

/-- `/\[bridge-attach:\s+([^\]\n]+?)\s*\]/` where the text begins: its group, and all of the match.
The group is what stands between the white space, up to the first bracket. Where there is nothing
but white space, the white space gives up its last unit that is no newline. -/
def matchMarker (text : JsText) : Option (JsText × JsText) :=
  if ¬ opening <+: text then none
  else
    let rest := text.drop opening.length
    let space := rest.takeWhile JsText.isWhitespace
    let rest := rest.dropWhile JsText.isWhitespace
    let body := rest.takeWhile (· ≠ closing)
    if space = [] || closing ∉ rest then none
    else
      let marker := opening ++ space ++ body ++ [closing]
      if body = [] then
        (space.tail.reverse.find? (· ≠ newline)).map fun u => ([u], marker)
      else
        let group := (body.reverse.dropWhile JsText.isWhitespace).reverse
        if newline ∈ group then none else some (group, marker)

/-- The matches of `matchAll`, with so many units left to skip. -/
def matchesFrom : ℕ → JsText → List (JsText × JsText)
  | _, [] => []
  | skip + 1, _ :: rest => matchesFrom skip rest
  | 0, u :: rest =>
      match matchMarker (u :: rest) with
      | some (group, marker) => (group, marker) :: matchesFrom (marker.length - 1) rest
      | none => matchesFrom 0 rest

def addMatch (parsed : ParsedAttachMarkers) (found : JsText × JsText) : ParsedAttachMarkers :=
  let raw := JsText.trim found.1
  if raw = [] then parsed
  else
    { parsed with
      paths := if raw ∈ parsed.paths then parsed.paths else parsed.paths ++ [raw]
      markersByPath := parsed.markersByPath.set raw
        ((parsed.markersByPath.get? raw).getD [] ++ [found.2]) }

def parseBridgeAttachMarkers (text : JsText) : ParsedAttachMarkers :=
  (matchesFrom 0 text).foldl addMatch ⟨text, [], .empty⟩

/-- One line without the markers; none when it is a marker and nothing else. -/
def stripLine (markers : List JsText) (line : JsText) : Option JsText :=
  if JsText.trim line ∈ markers then none
  else some (markers.foldl (fun lineOut m => Words.removeAll m lineOut) line)

def stripMarkersForPath (text : JsText) (parsed : ParsedAttachMarkers) (attachPath : JsText) :
    JsText :=
  match parsed.markersByPath.get? attachPath with
  | none | some [] => text
  | some markers => [newline].intercalate ((text.splitOn newline).filterMap (stripLine markers))

end AttachMarkers

end VicoopBridge
