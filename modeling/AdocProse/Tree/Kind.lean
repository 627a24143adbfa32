/-!
The kinds of nodes in a syntax tree. The set is closed: a tag that names none of them is refused.
-/

namespace AdocProse

inductive Kind where
  -- elements
  | file | asciidocSection | heading | block | blockMacro | blockAttributes | asciidocBlockId
  | asciidocAttributeDeclaration | attributeDeclarationName | attributeInBrackets | attributeRef
  | inlineMacro | listing | list | listItem | link | url | ref
  -- prose
  | text | whiteSpace
  -- line structure
  | emptyLine | lineBreak | hardBreak | continuation | endOfSentence | lineComment | blockComment
  -- headings and titles
  | headingToken | headingOldStyle | titleToken
  -- delimited blocks
  | blockDelimiter | listingBlockDelimiter | listingText | literalBlockDelimiter | literalBlock
  | quoteBlockDelimiter | exampleBlockDelimiter | sidebarBlockDelimiter | commentBlockDelimiter
  | passthroughBlockDelimiter | passthroughContent | frontMatterDelimiter | frontMatter
  -- macros
  | blockMacroId | blockMacroBody | inlineMacroId | inlineMacroBody
  -- attribute lists
  | blockAttrsStart | blockAttrsEnd | attrsStart | attrsEnd | inlineAttrsStart | inlineAttrsEnd
  | attrName | attrValue | attrListSep | assignment | separator
  -- attribute declarations and references
  | attributeNameStart | attributeName | attributeNameEnd | attributeValue
  | attributeContinuation | attributeRefStart | attributeRefEnd
  -- ids and cross references
  | blockIdStart | blockId | blockIdEnd | blockRefText | inlineIdStart | inlineIdEnd | refStart
  | refText | refEnd
  -- inline formatting
  | boldStart | bold | boldEnd | italicStart | italic | italicEnd | monoStart | mono | monoEnd
  | passthroughInlineStart | passthroughInline | passthroughInlineEnd
  -- punctuation
  | singleQuote | doubleQuote | typographicDoubleQuoteStart | typographicDoubleQuoteEnd
  | leftParen | rightParen | leftBracket | rightBracket | less | greater | htmlEntityOrUnicode
  -- links
  | linkStart | linkTextStart | linkText | linkEnd | urlStart | urlStem | urlLink | urlEmail
  | urlEnd
  -- lists, tables, admonitions
  | bullet | enumeration | callout | description | descriptionEnd | cellSeparator | admonition
  deriving DecidableEq

namespace Kind

def name : Kind → String
  | .file => "FILE"
  | .asciidocSection => "ASCIIDOC_SECTION"
  | .heading => "HEADING"
  | .block => "BLOCK"
  | .blockMacro => "BLOCK_MACRO"
  | .blockAttributes => "BLOCK_ATTRIBUTES"
  | .asciidocBlockId => "ASCIIDOC_BLOCKID"
  | .asciidocAttributeDeclaration => "ASCIIDOC_ATTRIBUTE_DECLARATION"
  | .attributeDeclarationName => "ATTRIBUTE_DECLARATION_NAME"
  | .attributeInBrackets => "ATTRIBUTE_IN_BRACKETS"
  | .attributeRef => "ATTRIBUTE_REF"
  | .inlineMacro => "INLINE_MACRO"
  | .listing => "LISTING"
  | .list => "LIST"
  | .listItem => "LIST_ITEM"
  | .link => "LINK"
  | .url => "URL"
  | .ref => "REF"
  | .text => "TEXT"
  | .whiteSpace => "WHITE_SPACE"
  | .emptyLine => "EMPTY_LINE"
  | .lineBreak => "LINE_BREAK"
  | .hardBreak => "HARD_BREAK"
  | .continuation => "CONTINUATION"
  | .endOfSentence => "END_OF_SENTENCE"
  | .lineComment => "LINE_COMMENT"
  | .blockComment => "BLOCK_COMMENT"
  | .headingToken => "HEADING_TOKEN"
  | .headingOldStyle => "HEADING_OLDSTYLE"
  | .titleToken => "TITLE_TOKEN"
  | .blockDelimiter => "BLOCK_DELIMITER"
  | .listingBlockDelimiter => "LISTING_BLOCK_DELIMITER"
  | .listingText => "LISTING_TEXT"
  | .literalBlockDelimiter => "LITERAL_BLOCK_DELIMITER"
  | .literalBlock => "LITERAL_BLOCK"
  | .quoteBlockDelimiter => "QUOTE_BLOCK_DELIMITER"
  | .exampleBlockDelimiter => "EXAMPLE_BLOCK_DELIMITER"
  | .sidebarBlockDelimiter => "SIDEBAR_BLOCK_DELIMITER"
  | .commentBlockDelimiter => "COMMENT_BLOCK_DELIMITER"
  | .passthroughBlockDelimiter => "PASSTHROUGH_BLOCK_DELIMITER"
  | .passthroughContent => "PASSTHROUGH_CONTENT"
  | .frontMatterDelimiter => "FRONTMATTER_DELIMITER"
  | .frontMatter => "FRONTMATTER"
  | .blockMacroId => "BLOCK_MACRO_ID"
  | .blockMacroBody => "BLOCK_MACRO_BODY"
  | .inlineMacroId => "INLINE_MACRO_ID"
  | .inlineMacroBody => "INLINE_MACRO_BODY"
  | .blockAttrsStart => "BLOCK_ATTRS_START"
  | .blockAttrsEnd => "BLOCK_ATTRS_END"
  | .attrsStart => "ATTRS_START"
  | .attrsEnd => "ATTRS_END"
  | .inlineAttrsStart => "INLINE_ATTRS_START"
  | .inlineAttrsEnd => "INLINE_ATTRS_END"
  | .attrName => "ATTR_NAME"
  | .attrValue => "ATTR_VALUE"
  | .attrListSep => "ATTR_LIST_SEP"
  | .assignment => "ASSIGNMENT"
  | .separator => "SEPARATOR"
  | .attributeNameStart => "ATTRIBUTE_NAME_START"
  | .attributeName => "ATTRIBUTE_NAME"
  | .attributeNameEnd => "ATTRIBUTE_NAME_END"
  | .attributeValue => "ATTRIBUTE_VAL"
  | .attributeContinuation => "ATTRIBUTE_CONTINUATION"
  | .attributeRefStart => "ATTRIBUTE_REF_START"
  | .attributeRefEnd => "ATTRIBUTE_REF_END"
  | .blockIdStart => "BLOCKIDSTART"
  | .blockId => "BLOCKID"
  | .blockIdEnd => "BLOCKIDEND"
  | .blockRefText => "BLOCKREFTEXT"
  | .inlineIdStart => "INLINEIDSTART"
  | .inlineIdEnd => "INLINEIDEND"
  | .refStart => "REFSTART"
  | .refText => "REFTEXT"
  | .refEnd => "REFEND"
  | .boldStart => "BOLD_START"
  | .bold => "BOLD"
  | .boldEnd => "BOLD_END"
  | .italicStart => "ITALIC_START"
  | .italic => "ITALIC"
  | .italicEnd => "ITALIC_END"
  | .monoStart => "MONO_START"
  | .mono => "MONO"
  | .monoEnd => "MONO_END"
  | .passthroughInlineStart => "PASSTHROUGH_INLINE_START"
  | .passthroughInline => "PASSTHROUGH_INLINE"
  | .passthroughInlineEnd => "PASSTHROUGH_INLINE_END"
  | .singleQuote => "SINGLE_QUOTE"
  | .doubleQuote => "DOUBLE_QUOTE"
  | .typographicDoubleQuoteStart => "TYPOGRAPHIC_DOUBLE_QUOTE_START"
  | .typographicDoubleQuoteEnd => "TYPOGRAPHIC_DOUBLE_QUOTE_END"
  | .leftParen => "LPAREN"
  | .rightParen => "RPAREN"
  | .leftBracket => "LBRACKET"
  | .rightBracket => "RBRACKET"
  | .less => "LT"
  | .greater => "GT"
  | .htmlEntityOrUnicode => "HTML_ENTITY_OR_UNICODE"
  | .linkStart => "LINKSTART"
  | .linkTextStart => "LINKTEXT_START"
  | .linkText => "LINKTEXT"
  | .linkEnd => "LINKEND"
  | .urlStart => "URL_START"
  | .urlStem => "URL_PREFIX"
  | .urlLink => "URL_LINK"
  | .urlEmail => "URL_EMAIL"
  | .urlEnd => "URL_END"
  | .bullet => "BULLET"
  | .enumeration => "ENUMERATION"
  | .callout => "CALLOUT"
  | .description => "DESCRIPTION"
  | .descriptionEnd => "DESCRIPTION_END"
  | .cellSeparator => "CELLSEPARATOR"
  | .admonition => "ADMONITION"

def all : List Kind :=
  [.file, .asciidocSection, .heading, .block, .blockMacro, .blockAttributes, .asciidocBlockId,
   .asciidocAttributeDeclaration, .attributeDeclarationName, .attributeInBrackets, .attributeRef,
   .inlineMacro, .listing, .list, .listItem, .link, .url, .ref, .text, .whiteSpace, .emptyLine,
   .lineBreak, .hardBreak, .continuation, .endOfSentence, .lineComment, .blockComment,
   .headingToken, .headingOldStyle, .titleToken, .blockDelimiter, .listingBlockDelimiter,
   .listingText, .literalBlockDelimiter, .literalBlock, .quoteBlockDelimiter,
   .exampleBlockDelimiter, .sidebarBlockDelimiter, .commentBlockDelimiter,
   .passthroughBlockDelimiter, .passthroughContent, .frontMatterDelimiter, .frontMatter,
   .blockMacroId, .blockMacroBody, .inlineMacroId, .inlineMacroBody, .blockAttrsStart,
   .blockAttrsEnd, .attrsStart, .attrsEnd, .inlineAttrsStart, .inlineAttrsEnd, .attrName,
   .attrValue, .attrListSep, .assignment, .separator, .attributeNameStart, .attributeName,
   .attributeNameEnd, .attributeValue, .attributeContinuation, .attributeRefStart,
   .attributeRefEnd, .blockIdStart, .blockId, .blockIdEnd, .blockRefText, .inlineIdStart,
   .inlineIdEnd, .refStart, .refText, .refEnd, .boldStart, .bold, .boldEnd, .italicStart, .italic,
   .italicEnd, .monoStart, .mono, .monoEnd, .passthroughInlineStart, .passthroughInline,
   .passthroughInlineEnd, .singleQuote, .doubleQuote, .typographicDoubleQuoteStart,
   .typographicDoubleQuoteEnd, .leftParen, .rightParen, .leftBracket, .rightBracket, .less,
   .greater, .htmlEntityOrUnicode, .linkStart, .linkTextStart, .linkText, .linkEnd, .urlStart,
   .urlStem, .urlLink, .urlEmail, .urlEnd, .bullet, .enumeration, .callout, .description,
   .descriptionEnd, .cellSeparator, .admonition]

def index (k : Kind) : Nat :=
  all.idxOf k

def sort (ks : List Kind) : List Kind :=
  ks.mergeSort fun a b => a.index ≤ b.index

def nameSpace : List Char :=
  ['A', 's', 'c', 'i', 'i', 'D', 'o', 'c', ':']

def withoutNameSpace (tag : List Char) : List Char :=
  if nameSpace.isPrefixOf tag then tag.drop nameSpace.length else tag

end Kind

/-- A tag, without its name space, that names no kind. -/
structure UnknownKind where
  tag : String
  deriving DecidableEq

def UnknownKind.text (u : UnknownKind) : String :=
  "unknown node type `" ++ u.tag ++ "`"

/-- The kind that a tag names. One name space in front of the name is allowed. -/
def Kind.ofTag (tag : String) : Except UnknownKind Kind :=
  let bare := String.ofList (Kind.withoutNameSpace tag.toList)
  match Kind.all.find? (·.name == bare) with
  | some k => .ok k
  | none => .error ⟨bare⟩

end AdocProse
