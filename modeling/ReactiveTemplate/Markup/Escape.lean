import ReactiveTemplate.Text.Search
/-!
# Escape — text and values as HTML

Three escapings: of text, where tags could start; of attribute values, where a double quote would end the value; and of
values that may land in either place.
-/
namespace ReactiveTemplate.Markup

def escapeTextChar (c : Char) : List Char :=
  if c = '&' then "&amp;".toList
  else if c = '<' then "&lt;".toList
  else if c = '>' then "&gt;".toList
  else [c]

def escapeValueChar (c : Char) : List Char :=
  if c = '&' then "&amp;".toList
  else if c = '"' then "&quot;".toList
  else [c]

def escapeHtmlChar (c : Char) : List Char :=
  if c = '"' then "&quot;".toList
  else if c = '\'' then "&#39;".toList
  else escapeTextChar c

def escapeText (s : String) : String := Text.flatMap s escapeTextChar

def escapeValue (s : String) : String := Text.flatMap s escapeValueChar

def escapeHtml (s : String) : String := Text.flatMap s escapeHtmlChar

end ReactiveTemplate.Markup
