/-!
# Characters in Latin letters

What stands for a character outside ASCII where only letters, digits, hyphens and underscores of
ASCII can be used: the letter without its marks, the common transcription of a letter of another
script, the digits of a numeral, the first Mandarin reading of an ideograph, the name of a symbol.
Marks and punctuation have no entry, or an empty one.
-/

namespace Stencil.Text

/-- Pieces for consecutive characters. -/
structure LatinBlock where
  /-- The code point of the first character. -/
  first : Nat
  /-- The pieces, with a bar between neighbours. -/
  pieces : String

/-- The pieces of the alphabetic scripts, numerals and signs. -/
def latinBlocks : List LatinBlock := [
  ⟨0xA0, " ||C|PS||Y||SS||c|a||||r|-|deg|-|2|3||u|P|||1|o||14|12|34||A|A|A|A|A|A|AE|C|E"⟩,
  ⟨0xC9, "E|E|E|I|I|I|I|D|N|O|O|O|O|O|x|O|U|U|U|U|Y|Th|ss|a|a|a|a|a|a|ae|c|e|e|e|e|i|i"⟩,
  ⟨0xEE, "i|i|d|n|o|o|o|o|o||o|u|u|u|u|y|th|y|A|a|A|a|A|a|C|c|C|c|C|c|C|c|D|d|D|d|E|e|E"⟩,
  ⟨0x115, "e|E|e|E|e|E|e|G|g|G|g|G|g|G|g|H|h|H|h|I|i|I|i|I|i|I|i|I|i|IJ|ij|J|j|K|k|k|L|l"⟩,
  ⟨0x13B, "L|l|L|l|L|l|L|l|N|n|N|n|N|n|n|NG|ng|O|o|O|o|O|o|OE|oe|R|r|R|r|R|r|S|s|S|s|S|s"⟩,
  ⟨0x160, "S|s|T|t|T|t|T|t|U|u|U|u|U|u|U|u|U|u|U|u|W|w|Y|y|Y|Z|z|Z|z|Z|z|s|b|B|B|b|6|6|O"⟩,
  ⟨0x187, "C|c|D|D|D|d|d|3||E|F|f|G|G|hv|I|I|K|k|l|l|W|N|n|O|O|o|OI|oi|P|p|YR|2|2|SH|sh"⟩,
  ⟨0x1AB, "t|T|t|T|U|u|Y|V|Y|y|Z|z|ZH|ZH|zh|zh|2|5|5|ts|w|||||DZ|Dz|dz|LJ|Lj|lj|NJ|Nj|nj"⟩,
  ⟨0x1CD, "A|a|I|i|O|o|U|u|U|u|U|u|U|u|U|u||A|a|A|a|AE|ae|G|g|G|g|K|k|O|o|O|o|ZH|zh|j|DZ"⟩,
  ⟨0x1F2, "Dz|dz|G|g|HV|W|N|n|A|a|AE|ae|O|o|A|a|A|a|E|e|E|e|I|i|I|i|O|o|O|o|R|r|R|r|U|u"⟩,
  ⟨0x216, "U|u|S|s|T|t|Y|y|H|h|N|d|OU|ou|Z|z|A|a|E|e|O|o|O|o|O|o|O|o|Y|y|l|n|t|j|db|qp|A"⟩,
  ⟨0x23B, "C|c|L|T|s|z|||B|U|V|E|e|J|j|Q|q|R|r|Y|y|a|a|a|b|o|c|d|d|e|||e|e|e|e|j|g|g|g|g"⟩,
  ⟨0x264, "u|Y|h|h|i|i|I|l|l|l|lZ|W|W|m|n|n|n|o|OE|O|F|r|r|r|r|r|r|r|R|R|s|S|j|S|S|t|t|u"⟩,
  ⟨0x28A, "U|v||w|y|Y|z|z|Z|Z||||C|O|B|E|G|H|j|k|L|q|||dz|dZ|dz|ts|tS|tC|fN|ls|lz|WW||h"⟩,
  ⟨0x2AF, "h"⟩,
  ⟨0x2B0, "k|h|j|r|r|r|r|w|y"⟩,
  ⟨0x37A, "i"⟩,
  ⟨0x386, "A||E|E|I||O||U|O|I|A|B|G|D|E|Z|E|Th|I|K|L|M|N|X|O|P|R||S|T|U|Ph|Kh|Ps|O|I|U|a"⟩,
  ⟨0x3AD, "e|e|i|u|a|b|g|d|e|z|e|th|i|k|l|m|n|x|o|p|r|s|s|t|u|ph|kh|ps|o|i|u|o|u|o||b|th"⟩,
  ⟨0x3D2, "U|U|U|ph|p"⟩,
  ⟨0x400, "Ie|Io|Dj|Gj|Ie|Dz|I|Yi|J|Lj|Nj|Tsh|Kj|I|U|Dzh|A|B|V|G|D|E|Zh|Z|I|I|K|L|M|N|O"⟩,
  ⟨0x41F, "P|R|S|T|U|F|Kh|Ts|Ch|Sh|Shch||Y||E|Iu|Ia|a|b|v|g|d|e|zh|z|i|i|k|l|m|n|o|p|r|s"⟩,
  ⟨0x442, "t|u|f|kh|ts|ch|sh|shch||y||e|iu|ia|ie|io|dj|gj|ie|dz|i|yi|j|lj|nj|tsh|kj|i|u"⟩,
  ⟨0x45F, "dzh|O|o|E|e|Ie|ie|E|e|Ie|ie|O|o|Io|io|Ks|ks|Ps|ps|F|f|Y|y|Y|y|u|u|O|o|O|o|Ot"⟩,
  ⟨0x47F, "ot|Q|q"⟩,
  ⟨0x48A, "I|i|||R|r|G|g|G|g|G|g|Zh|zh|Z|z|K|k|K|k|K|k|K|k|N|n|Ng|ng|P|p|Kh|kh|S|s|T|t|U"⟩,
  ⟨0x4AF, "u|U|u|Kh|kh|Tts|tts|Ch|ch|Ch|ch|H|h|Ch|ch|Ch|ch||Zh|zh|K|k|||N|n|||Ch|ch||||a"⟩,
  ⟨0x4D1, "a|A|a|Ae|ae|Ie|ie|||||Zh|zh|Z|z|Dz|dz|I|i|I|i|O|o|O|o|O|o|E|e|U|u|U|u|U|u|Ch"⟩,
  ⟨0x4F5, "ch|||Y|y"⟩,
  ⟨0x531, "A|B|G|D|E|Z|E|E|T|Zh|I|L|Kh|Ts|K|H|Dz|Gh|Ch|M|Y|N|Sh|O|Ch|P|J|Rh|S|V|T|R|Ts|W"⟩,
  ⟨0x553, "P|K|O|F"⟩,
  ⟨0x561, "a|b|g|d|e|z|e|e|t|zh|i|l|kh|ts|k|h|dz|gh|ch|m|y|n|sh|o|ch|p|j|rh|s|v|t|r|ts|w"⟩,
  ⟨0x583, "p|k|o|f|ew"⟩,
  ⟨0x5D0, "A|b|g|d|h|v|z|KH|t|y|k|k|l|m|m|n|n|s||p|p|TS|TS|q|r|SH|t"⟩,
  ⟨0x622, "a||w||y|a|b||t|th|j|H|kh|d|dh|r|z|s|sh|S|D|T|Z||G|||||||f|q|k|l|m|n|h|w||y|an"⟩,
  ⟨0x64C, "un|in|a|u|i|W"⟩,
  ⟨0x10D0, "a|b|g|d|e|v|z|t|i|k|l|m|n|o|p|zh|r|s|t|u|p|k|gh|q|sh|ch|ts|dz|ts|ch|kh|j|h"⟩,
  ⟨0x1E00, "A|a|B|b|B|b|B|b|C|c|D|d|D|d|D|d|D|d|D|d|E|e|E|e|E|e|E|e|E|e|F|f|G|g|H|h|H|h|H"⟩,
  ⟨0x1E27, "h|H|h|H|h|I|i|I|i|K|k|K|k|K|k|L|l|L|l|L|l|L|l|M|m|M|m|M|m|N|n|N|n|N|n|N|n|O|o"⟩,
  ⟨0x1E4E, "O|o|O|o|O|o|P|p|P|p|R|r|R|r|R|r|R|r|S|s|S|s|S|s|S|s|S|s|T|t|T|t|T|t|T|t|U|u|U"⟩,
  ⟨0x1E75, "u|U|u|U|u|U|u|V|v|V|v|W|w|W|w|W|w|W|w|W|w|X|x|X|x|Y|y|Z|z|Z|z|Z|z|h|t|w|y|a|s"⟩,
  ⟨0x1E9C, "s|s|SS|d|A|a|A|a|A|a|A|a|A|a|A|a|A|a|A|a|A|a|A|a|A|a|A|a|E|e|E|e|E|e|E|e|E|e"⟩,
  ⟨0x1EC2, "E|e|E|e|E|e|I|i|I|i|O|o|O|o|O|o|O|o|O|o|O|o|O|o|O|o|O|o|O|o|O|o|O|o|U|u|U|u|U"⟩,
  ⟨0x1EE9, "u|U|u|U|u|U|u|U|u|Y|y|Y|y|Y|y|Y|y|LL|ll|V|v|Y|y"⟩,
  ⟨0x1F00, "a|a|a|a|a|a|a|a|A|A|A|A|A|A|A|A|e|e|e|e|e|e|||E|E|E|E|E|E|||e|e|e|e|e|e|e|e|E"⟩,
  ⟨0x1F29, "E|E|E|E|E|E|E|i|i|i|i|i|i|i|i|I|I|I|I|I|I|I|I|o|o|o|o|o|o|||O|O|O|O|O|O|||u|u"⟩,
  ⟨0x1F52, "u|u|u|u|u|u||U||U||U||U|o|o|o|o|o|o|o|o|O|O|O|O|O|O|O|O|a|a|e|e|e|e|i|i|o|o|u"⟩,
  ⟨0x1F7B, "u|o|o|||a|a|a|a|a|a|a|a|A|A|A|A|A|A|A|A|e|e|e|e|e|e|e|e|E|E|E|E|E|E|E|E|o|o|o"⟩,
  ⟨0x1FA3, "o|o|o|o|o|O|O|O|O|O|O|O|O|a|a|a|a|a||a|a|A|A|A|A|A| |i| | | |e|e|e||e|e|E|E|E"⟩,
  ⟨0x1FCB, "E|E| | | |i|i|i|i|||i|i|I|I|I|I|| | | |u|u|u|u|r|r|u|u|U|U|U|U|R| | ||||o|o|o"⟩,
  ⟨0x1FF6, "o|o|O|O|O|O|O| | "⟩,
  ⟨0x2000, " | | | | | | | | | | ||||||-|-|-|-|--|--||_"⟩,
  ⟨0x2028, " | "⟩,
  ⟨0x202F, " "⟩,
  ⟨0x203E, " |_|_|||-"⟩,
  ⟨0x205F, " "⟩,
  ⟨0x2070, "0|i|||4|5|6|7|8|9||-||||n|0|1|2|3|4|5|6|7|8|9||-|||||a|e|o|x"⟩,
  ⟨0x20A0, "ECU|CL|Cr|FF|L|mil|N|Pts|Rs|W|NS|D|EUR|K|T|Dr"⟩,
  ⟨0x2100, "ac|as|C|degC||co|cu|||degF|g|H|H|H|h|h|I|I|L|l||N|No|p|P|P|Q|R|R|R|R||sm|TEL"⟩,
  ⟨0x2122, "tm||Z||ohm|mho|Z||K|A|B|C|e|e|E|F||M|o|||||i||FAX"⟩,
  ⟨0x2145, "D|d|e|i|j|||||||17|19|110|13|23|15|25|35|45|16|56|18|38|58|78|1|I|II|III|IV|V"⟩,
  ⟨0x2165, "VI|VII|VIII|IX|X|XI|XII|L|C|D|M|i|ii|iii|iv|v|vi|vii|viii|ix|x|xi|xii|l|c|d|m"⟩,
  ⟨0x2189, "03"⟩,
  ⟨0x2190, "-||-||-"⟩,
  ⟨0x2212, "-"⟩,
  ⟨0x2460, "1|2|3|4|5|6|7|8|9|10|11|12|13|14|15|16|17|18|19|20|1|2|3|4|5|6|7|8|9|10|11|12"⟩,
  ⟨0x2480, "13|14|15|16|17|18|19|20|1|2|3|4|5|6|7|8|9|10|11|12|13|14|15|16|17|18|19|20|a"⟩,
  ⟨0x249D, "b|c|d|e|f|g|h|i|j|k|l|m|n|o|p|q|r|s|t|u|v|w|x|y|z|A|B|C|D|E|F|G|H|I|J|K|L|M|N"⟩,
  ⟨0x24C4, "O|P|Q|R|S|T|U|V|W|X|Y|Z|a|b|c|d|e|f|g|h|i|j|k|l|m|n|o|p|q|r|s|t|u|v|w|x|y|z|0"⟩,
  ⟨0x3000, " |||||||0"⟩,
  ⟨0x3041, "a|a|i|i|u|u|e|e|o|o|ka|ga|ki|gi|ku|gu|ke|ge|ko|go|sa|za|shi|zi|su|zu|se|ze|so"⟩,
  ⟨0x305E, "zo|ta|da|chi|di|tsu|tsu|du|te|de|to|do|na|ni|nu|ne|no|ha|ba|pa|hi|bi|pi|hu|bu"⟩,
  ⟨0x3077, "pu|he|be|pe|ho|bo|po|ma|mi|mu|me|mo|ya|ya|yu|yu|yo|yo|ra|ri|ru|re|ro|wa|wa|wi"⟩,
  ⟨0x3091, "we|wo|n|vu|ka|ke"⟩,
  ⟨0x30A1, "a|a|i|i|u|u|e|e|o|o|ka|ga|ki|gi|ku|gu|ke|ge|ko|go|sa|za|shi|zi|su|zu|se|ze|so"⟩,
  ⟨0x30BE, "zo|ta|da|chi|di|tsu|tsu|du|te|de|to|do|na|ni|nu|ne|no|ha|ba|pa|hi|bi|pi|hu|bu"⟩,
  ⟨0x30D7, "pu|he|be|pe|ho|bo|po|ma|mi|mu|me|mo|ya|ya|yu|yu|yo|yo|ra|ri|ru|re|ro|wa|wa|wi"⟩,
  ⟨0x30F1, "we|wo|n|vu|ka|ke|va|vi|ve|vo||-"⟩,
  ⟨0x3105, "B|P|M|F|D|T|N|L|G|K|H|J|Q|X|ZH|CH|SH|R|Z|C|S|A|O|E|EH|AI|EI|AU|OU|AN|EN|ANG"⟩,
  ⟨0x3125, "ENG|ER|I|U|IU"⟩,
  ⟨0xFB00, "ff|fi|fl|ffi|ffl|st|st"⟩,
  ⟨0xFF66, "wo|a|i|u|e|o|ya|yu|yo|tsu|-|a|i|u|e|o|ka|ki|ku|ke|ko|sa|shi|su|se|so|ta|chi"⟩,
  ⟨0xFF82, "tsu|te|to|na|ni|nu|ne|no|ha|hi|hu|he|ho|ma|mi|mu|me|mo|ya|yu|yo|ra|ri|ru|re"⟩,
  ⟨0xFF9B, "ro|wa|n"⟩,
  ⟨0xFFE0, "C|PS||-|||W"⟩,
  ⟨0xFFEE, "O"⟩]

/-- Readings of common ideographs, with the characters that have them. -/
def latinReadings : List (String × String) := [
  ("A", "阿啊"), ("Ai", "爱愛"), ("An", "安按"), ("Ba", "八把吧巴爸"), ("Bai", "白百"), ("Ban", "半办班板版阪"),
  ("Bao", "包保报報宝"), ("Bei", "北被备杯"), ("Ben", "本"), ("Bi", "比必笔筆"), ("Bian", "边变便辺"),
  ("Biao", "表标"), ("Bie", "别"), ("Bing", "兵病冰"), ("Bo", "波博"), ("Bu", "不部步"), ("Cai", "才菜"),
  ("Ce", "册测"), ("Cha", "茶查差"), ("Chang", "长常场長"), ("Che", "车車"), ("Cheng", "成城程"),
  ("Chi", "吃持"), ("Chong", "重"), ("Chu", "出初处"), ("Chuan", "川传船"), ("Chun", "春"), ("Ci", "此次词"),
  ("Cong", "从"), ("Cun", "村"), ("Da", "大打答"), ("Dai", "代带"), ("Dan", "但单"), ("Dang", "当"),
  ("Dao", "到道导島岛"), ("De", "的得德"), ("Deng", "等"), ("Di", "地第弟"), ("Dian", "点电電店"), ("Ding", "定"),
  ("Dong", "东動动東冬"), ("Dou", "都"), ("Du", "度读"), ("Dui", "对"), ("Duo", "多"), ("Er", "二而儿"),
  ("Fa", "发法発"), ("Fan", "反饭"), ("Fang", "方放房"), ("Fei", "非飞"), ("Fen", "分"), ("Feng", "风風"),
  ("Fu", "夫父服福府"), ("Gai", "改该"), ("Gan", "干感"), ("Gang", "刚港"), ("Gao", "高告"), ("Ge", "个各歌個"),
  ("Gei", "给"), ("Gong", "工公共"), ("Gou", "够"), ("Gu", "古故"), ("Guan", "关观"), ("Guang", "光广"),
  ("Gui", "归"), ("Guo", "国國过果"), ("Hai", "海还孩"), ("Han", "汉漢韩"), ("Hao", "好号"), ("He", "何和合河"),
  ("Hei", "黑"), ("Hen", "很"), ("Hong", "红"), ("Hou", "后後"), ("Hu", "湖虎"), ("Hua", "花话化画"),
  ("Huan", "欢"), ("Huang", "黄"), ("Hui", "会回"), ("Huo", "火活或"), ("Ji", "几己机记级計"), ("Jia", "家加"),
  ("Jian", "见间間"), ("Jiang", "江将"), ("Jiao", "教叫"), ("Jie", "界接结"), ("Jin", "金今进近"),
  ("Jing", "京经精井"), ("Jiu", "九就久"), ("Ju", "句"), ("Jue", "觉"), ("Jun", "军"), ("Kai", "开開"),
  ("Kan", "看"), ("Ke", "可客科课"), ("Kong", "空"), ("Kou", "口"), ("Kuai", "快"), ("Lai", "来來"),
  ("Lan", "蓝"), ("Lao", "老"), ("Le", "了乐"), ("Li", "里力理立李"), ("Lian", "连"), ("Liang", "两"),
  ("Lin", "林"), ("Liu", "六流"), ("Long", "龙龍"), ("Lu", "路"), ("Ma", "马吗妈馬"), ("Mai", "买"),
  ("Man", "满"), ("Mao", "猫毛"), ("Mei", "美没每妹"), ("Men", "们门門"), ("Mi", "米"), ("Mian", "面"),
  ("Min", "民"), ("Ming", "名明"), ("Mo", "末"), ("Mu", "木目母"), ("Na", "那"), ("Nan", "南男难"),
  ("Nei", "内"), ("Neng", "能"), ("Ni", "你"), ("Nian", "年念"), ("Niao", "鸟鳥"), ("Nu", "女"),
  ("Peng", "朋"), ("Pian", "片"), ("Ping", "平"), ("Qi", "七起其气"), ("Qian", "千前钱"), ("Qiang", "强"),
  ("Qing", "青请情"), ("Qiu", "秋"), ("Qu", "去区"), ("Quan", "全"), ("Ran", "然"), ("Rang", "让"),
  ("Re", "热"), ("Ren", "人认"), ("Ri", "日"), ("Ru", "如"), ("Ruan", "软"), ("Ruo", "若"), ("San", "三"),
  ("Sen", "森"), ("Sha", "沙"), ("Shan", "山"), ("Shang", "上商"), ("Shao", "少"), ("She", "社"),
  ("Shen", "神身"), ("Sheng", "生声"), ("Shi", "世十是时事市使始時食"), ("Shou", "手"), ("Shu", "书書树数"),
  ("Shui", "水谁"), ("Shuo", "说説"), ("Si", "四思"), ("Song", "松"), ("Su", "苏"), ("Sui", "岁"),
  ("Suo", "所"), ("Ta", "他她它"), ("Tai", "太台"), ("Tang", "唐"), ("Ti", "体题"), ("Tian", "天田"),
  ("Tiao", "条"), ("Ting", "听"), ("Tong", "同"), ("Tou", "头"), ("Tu", "土图"), ("Wai", "外"),
  ("Wan", "万完晚"), ("Wang", "王往网"), ("Wei", "为位味"), ("Wen", "文问"), ("Wo", "我"), ("Wu", "五午无物"),
  ("Xi", "西习喜"), ("Xia", "下夏"), ("Xian", "先现县"), ("Xiang", "想向香"), ("Xiao", "小校笑"),
  ("Xie", "些写谢"), ("Xin", "新心信"), ("Xing", "行星"), ("Xiong", "兄"), ("Xue", "学學雪"), ("Ya", "亚"),
  ("Yan", "言眼"), ("Yang", "样阳羊"), ("Yao", "要"), ("Ye", "也夜业野"), ("Yi", "一以已意医"), ("Yin", "因音"),
  ("Ying", "英应"), ("Yong", "用永"), ("You", "有又友右"), ("Yu", "语語雨鱼"), ("Yuan", "元原远园"), ("Yue", "月"),
  ("Yun", "云"), ("Zai", "在再"), ("Zao", "早"), ("Ze", "则"), ("Zen", "怎"), ("Zhan", "站"),
  ("Zhang", "张"), ("Zhao", "找"), ("Zhe", "这者"), ("Zhen", "真"), ("Zheng", "正"), ("Zhi", "之知只"),
  ("Zhong", "中"), ("Zhou", "州周"), ("Zhu", "主住"), ("Zi", "子字自"), ("Zou", "走"), ("Zu", "足"),
  ("Zui", "最"), ("Zuo", "作坐左")]

/-- Names of pictographs. -/
def latinNames : List (Char × String) := [
  ('😀', "grinning"), ('😃', "smiley"), ('😄', "smile"), ('😁', "grin"), ('😂', "joy"),
  ('😉', "wink"), ('😊', "blush"), ('😎', "sunglasses"), ('😭', "sob"), ('🤔', "thinking"),
  ('🎉', "tada"), ('🚀', "rocket"), ('🔥', "fire"), ('🦀', "crab"), ('🐍', "snake"),
  ('🦄', "unicorn"), ('☣', "biohazard"), ('❤', "heart"), ('⭐', "star"), ('🍕', "pizza"),
  ('🍺', "beer"), ('☕', "coffee"), ('🎂', "birthday"), ('🐶', "dog"), ('🐱', "cat"),
  ('👍', "1"), ('👋', "wave"), ('👀', "eyes"), ('✨', "sparkles"), ('☀', "sunny"),
  ('☃', "snowman"), ('☂', "umbrella"), ('☎', "phone")]

end Stencil.Text
